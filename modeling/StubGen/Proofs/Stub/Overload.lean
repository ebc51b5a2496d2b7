import StubGen.Proofs.Stub.Written

/-!
# Overloads in a file

The output of a file is what grouping makes of its declarations (`generate_grouped`).

* `Log.DispatchesFor` says which dispatchers the uses of a log bring in.
-/

namespace StubGen.DeclFile

section Dispatchers

/-- The scopes of the types that a log defines, with their dispatcher. -/
def Log.scopes (log : Log) : List (String × List Entry) :=
  log.blocks.map fun block => ("singledispatchmethod", block.decl.members)

/-- The scopes of the classes among parts, with their dispatcher. -/
def Part.scopes (parts : List Part) : List (String × List Entry) :=
  (parts.filterMap Part.class?).map fun decl => ("singledispatchmethod", decl.members)

/-- A log uses the dispatcher of each of the scopes that has overloads in it, and no symbol besides those of the
text. -/
structure Log.DispatchesFor (style : Style) (log : Log) (scopes : List (String × List Entry)) : Prop where
  uses : ∀ scope ∈ scopes, Entry.hasOverloads scope.2 = true → ⟨"functools", scope.1⟩ ∈ log.uses
  only : ∀ symbol ∈ log.uses, symbol ∈ style.symbols ∨
    ∃ scope ∈ scopes, Entry.hasOverloads scope.2 = true ∧ symbol = ⟨"functools", scope.1⟩

theorem Log.DispatchesFor.append {style : Style} {log more : Log} {scopes others all : List (String × List Entry)}
    (h : log.DispatchesFor style scopes) (h' : more.DispatchesFor style others)
    (hall : ∀ scope, scope ∈ all ↔ scope ∈ scopes ∨ scope ∈ others) : (log ++ more).DispatchesFor style all where
  uses scope hscope hoverloads := by
    rw [Log.uses_append, List.mem_append]
    exact ((hall scope).mp hscope).imp (h.uses scope · hoverloads) (h'.uses scope · hoverloads)
  only symbol hsymbol := by
    rw [Log.uses_append, List.mem_append] at hsymbol
    rcases hsymbol with hsymbol | hsymbol
    · exact (h.only symbol hsymbol).imp_right fun ⟨scope, hscope, heq⟩ =>
        ⟨scope, (hall scope).mpr (Or.inl hscope), heq⟩
    · exact (h'.only symbol hsymbol).imp_right fun ⟨scope, hscope, heq⟩ =>
        ⟨scope, (hall scope).mpr (Or.inr hscope), heq⟩

/-- The piece uses the dispatchers of the types that it defines and of the scopes in its value. -/
def Stubs.Dispatches {α : Type} (style : Style) (scopes : α → List (String × List Entry)) (piece : Stubs α) : Prop :=
  ∀ count, (piece count).1.DispatchesFor style ((piece count).1.scopes ++ scopes (piece count).2)

namespace Stubs.Dispatches

variable {α β : Type} {style : Style}

protected theorem pure {scopes : α → List (String × List Entry)} {value : α} (h : scopes value = []) :
    (pure value : Stubs α).Dispatches style scopes :=
  fun _ => ⟨by simp [Log.scopes, pure_apply, Log.empty, h], by simp [pure_apply, Log.empty]⟩

theorem bind {scopes : α → List (String × List Entry)} {others : α → β → List (String × List Entry)}
    {all : β → List (String × List Entry)} {first : Stubs α} {next : α → Stubs β}
    (hfirst : first.Dispatches style scopes) (hnext : ∀ value, (next value).Dispatches style (others value))
    (hall : ∀ value, (next value).Ensures (fun _ => True) fun result =>
      ∀ scope, scope ∈ all result ↔ scope ∈ scopes value ∨ scope ∈ others value result) :
    (first >>= next).Dispatches style all := by
  intro count
  rw [bind_apply]
  refine (hfirst count).append (hnext _ _) fun scope => ?_
  simp only [List.mem_append, Log.scopes, Log.blocks_append, List.map_append, (hall _ _).2 scope]
  tauto

theorem bind_left {all : β → List (String × List Entry)} {first : Stubs α} {next : α → Stubs β}
    (hfirst : first.Dispatches style fun _ => []) (hnext : ∀ value, (next value).Dispatches style all) :
    (first >>= next).Dispatches style all :=
  hfirst.bind hnext fun _ _ => ⟨fun _ _ => trivial, by simp⟩

theorem congr {scopes others : α → List (String × List Entry)} {piece : Stubs α} (h : piece.Dispatches style scopes)
    {Defines : Block → Prop} (hvalue : piece.Ensures Defines fun value => scopes value = others value) :
    piece.Dispatches style others := by
  intro count
  rw [← (hvalue count).2]
  exact h count

theorem mapM {f : α → Stubs β} {scopes : β → List (String × List Entry)} {items : List α}
    (h : ∀ item ∈ items, (f item).Dispatches style scopes) :
    (items.mapM f).Dispatches style fun results => results.flatMap scopes := by
  induction items with
  | nil => exact .pure rfl
  | cons item rest ih =>
    obtain ⟨hitem, hrest⟩ := List.forall_mem_cons.mp h
    have hpure : ∀ first others, (pure (first :: others) : Stubs (List β)).Dispatches style fun _ => [] :=
      fun _ _ => .pure rfl
    have hnext : ∀ first, (do return first :: (← rest.mapM f) : Stubs (List β)).Dispatches style fun results =>
        results.tail.flatMap scopes := fun first =>
      (ih hrest).bind (hpure first) fun _ => .pure fun _ => by simp
    rw [List.mapM_cons]
    exact hitem.bind hnext fun first => (Ensures.trivial _).bind fun _ _ => .pure fun _ => by simp

end Stubs.Dispatches

/-- The dispatcher of a scope is used ahead of what has the scope in it. -/
theorem dispatches_useDispatch {α : Type} (style : Style) {scopes : α → List (String × List Entry)} {value : α}
    {dispatch : String} {entries : List Entry} (h : scopes value = [(dispatch, entries)]) :
    (do useDispatch dispatch entries; return value : Stubs α).Dispatches style scopes := by
  intro count
  rw [Stubs.bind_apply, useDispatch]
  cases hoverloads : Entry.hasOverloads entries with
  | false =>
    exact ⟨by simp [Log.scopes, Stubs.pure_apply, Log.empty, h, hoverloads], by simp [Stubs.pure_apply, Log.empty]⟩
  | true =>
    exact ⟨by simp [Log.scopes, Stubs.pure_apply, Stubs.use, Log.empty, h],
      by simp [Log.scopes, Stubs.pure_apply, Stubs.use, Log.empty, h, hoverloads]⟩

theorem closed_dispatches (style : Style) : Closed style fun piece => piece.Dispatches style fun _ => [] where
  pure _ := .pure rfl
  bind hfirst hnext := hfirst.bind_left hnext
  use _ hsymbol _ := ⟨by simp [Log.scopes, Stubs.use], fun symbol h => Or.inl (by simpa [List.mem_singleton.mp h])⟩
  report _ _ _ := ⟨by simp [Log.scopes, Stubs.report], by simp [Stubs.report]⟩

theorem dispatches_classCode {style : Style} (recased : Recased) (bases : Stubs (List String))
    (hbases : bases.Dispatches style fun _ => []) {members : Stubs (List Entry)}
    (hmembers : members.Dispatches style fun _ => []) (isInterface isEmpty : Bool) :
    (classCode style recased bases isInterface members isEmpty).Dispatches style fun decl =>
      [("singledispatchmethod", decl.members)] := by
  have h := closed_dispatches style
  exact (h.useRuntime (by decide)).bind_left fun _ => (h.aliasLines recased).bind_left fun _ =>
    hbases.bind_left fun texts => (h.classHeader recased.name texts isInterface).bind_left fun _ =>
      hmembers.bind_left fun _ => dispatches_useDispatch style rfl

/-- What stands for types and members uses the dispatchers of the types that it defines. -/
theorem hereditary_dispatches (style : Style) : Hereditary style fun piece => piece.Dispatches style fun _ => [] := by
  refine ⟨closed_dispatches style, fun members hmembers count => ?_⟩
  have hcode := dispatches_classCode ⟨style.typeName (count + 1), none⟩ (pure []) (.pure rfl) hmembers true
    (!members.any Member.isEmitted) (count + 1)
  have hblock : ∀ code, (⟨[], [⟨count + 1, code⟩], []⟩ : Log).DispatchesFor style [] :=
    fun _ => ⟨by simp, by simp⟩
  exact hcode.append (hblock _) fun scope => by simp [typeText, Stubs.synthesize, Log.scopes]

private theorem dispatches_writeClass (style : Style) (isInterface : Bool) (decl : ClassDecl) :
    (writeClass style isInterface decl).Dispatches style Part.scopes := by
  have h := hereditary_dispatches style
  obtain ⟨name, heritage, members⟩ := decl
  cases name with
  | other kind text => exact (h.report _ _).bind_left fun _ => .pure rfl
  | ident name =>
    have hcode := dispatches_classCode (.pascal name) _ (h.bases heritage) (h.memberEntries false members) isInterface
      (!members.any Member.isEmitted)
    have hpure : ∀ code, (pure [.scope code] : Stubs (List Part)).Dispatches style fun _ => [] := fun _ => .pure rfl
    exact hcode.bind hpure fun code => .pure fun scope => by simp [Part.scopes, Part.class?]

private theorem dispatches_statementParts (style : Style) (statement : Statement) :
    (statementParts style statement).Dispatches style Part.scopes := by
  have h := hereditary_dispatches style
  -- what has no class in it has no scopes in its parts
  have hnone : statement.class? = none → (statementParts style statement).Dispatches style (fun _ => []) →
      (statementParts style statement).Dispatches style Part.scopes := by
    intro hclass hparts
    refine hparts.congr ((ensures_statementParts (hereditary_isTypeOf style) statement).mono fun parts hdeclares => ?_)
    have hscopes := hdeclares.classes
    rw [hclass] at hscopes
    rw [Part.scopes, List.map_eq_nil_iff.mp hscopes]
    rfl
  cases statement with
  | classDecl decl => exact dispatches_writeClass style false decl
  | interface decl => exact dispatches_writeClass style true decl
  | function name params result => exact hnone rfl (h.writeFunction name params result)
  | typeAlias name type => exact hnone rfl (h.writeTypeAlias name type)
  | enum name members => exact hnone rfl (h.writeEnum name members)
  | variableDecls declared =>
    exact hnone rfl ((h.mapM declared fun item _ => h.writeVariable item).bind_left fun _ => .pure rfl)
  | module => exact .pure rfl
  | unsupported kind => exact (h.report _ _).bind_left fun _ => .pure rfl

/-- A file uses the dispatchers of the types that it defines, of its classes and of its own scope. -/
theorem dispatches_fileParts (style : Style) (statements : List Statement) :
    (fileParts style statements).Dispatches style fun parts =>
      Part.scopes parts ++ [("singledispatch", parts.map Part.toEntry)] := by
  have hparts := Stubs.Dispatches.mapM fun statement (_ : statement ∈ statements) =>
    dispatches_statementParts style statement
  have hbody : ∀ results : List (List Part), (do
      useDispatch "singledispatch" (results.flatten.map Part.toEntry)
      return results.flatten : Stubs (List Part)).Dispatches style fun parts =>
        [("singledispatch", parts.map Part.toEntry)] := fun _ => dispatches_useDispatch style rfl
  refine hparts.bind hbody fun results => (Stubs.Ensures.trivial _).bind fun _ _ => .pure fun scope => ?_
  have hflatten : Part.scopes results.flatten = results.flatMap Part.scopes := by
    simp [Part.scopes, List.filterMap_flatten, List.map_flatten, List.flatMap]
    rfl
  rw [List.mem_append, hflatten]

end Dispatchers

/-- The rows of a file: those of each type that it defines, and those of its body. -/
def fileRows (log : Log) (parts : List Part) : List (List ScopeRow) :=
  (log.blocks.map fun block => block.decl.scopeRows 1) ++ [bodyRows parts]

section Files

variable {style : Style} {log : Log} {parts : List Part}

/-- The blocks of the output are the rows of the file, grouped. -/
private theorem blocks_eq (hblocks : ∀ block ∈ log.blocks, ∀ entry ∈ block.decl.members, entry.IsStub)
    (hparts : ∀ part ∈ parts, part.IsStub) : log.blocks.map Block.lines ++ [(draftBody parts).finish] =
      (fileRows log parts).map fun rows => (ScopeRow.group rows).map (Row.atDepth 0) := by
  rw [fileRows, List.map_append, List.map_map, List.map_singleton, (shows_draftBody hparts).finish_eq]
  congr 1
  exact List.map_congr_left fun block hblock => (ClassCode.shows_draft (hblocks block hblock) 1).finish_eq

/-- The dispatchers that grouping needs are those of the scopes with overloads. -/
private theorem exists_dispatches_iff (hblocks : ∀ block ∈ log.blocks, ∀ entry ∈ block.decl.members, entry.IsStub)
    (hparts : ∀ part ∈ parts, part.IsStub) (dispatch : String) :
    (∃ rows ∈ fileRows log parts, ScopeRow.Dispatches dispatch rows) ↔
      ∃ scope ∈ log.scopes ++ (Part.scopes parts ++ [("singledispatch", parts.map Part.toEntry)]),
        Entry.hasOverloads scope.2 = true ∧ dispatch = scope.1 := by
  have hclass : ∀ decl, Part.scope decl ∈ parts ↔ decl ∈ parts.filterMap Part.class? := by
    intro decl
    rw [List.mem_filterMap]
    constructor
    · exact fun hmem => ⟨_, hmem, rfl⟩
    · rintro ⟨_ | _, hmem, heq⟩
      · cases heq
      · cases heq
        exact hmem
  constructor
  · rintro ⟨rows, hrows, hdispatches⟩
    rcases List.mem_append.mp hrows with hrows | hrows
    · obtain ⟨block, hblock, rfl⟩ := List.mem_map.mp hrows
      obtain ⟨hdispatch, hoverloads⟩ := (dispatches_class (hblocks block hblock) 1 dispatch).mp hdispatches
      exact ⟨_, List.mem_append_left _ (List.mem_map_of_mem hblock), hoverloads, hdispatch⟩
    · rw [List.mem_singleton.mp hrows] at hdispatches
      rcases (dispatches_body hparts dispatch).mp hdispatches with
        ⟨hdispatch, hoverloads⟩ | ⟨hdispatch, decl, hmem, hoverloads⟩
      · exact ⟨_, List.mem_append_right _ (List.mem_append_right _ (List.mem_singleton_self _)), hoverloads, hdispatch⟩
      · exact ⟨_, List.mem_append_right _ (List.mem_append_left _ (List.mem_map_of_mem ((hclass decl).mp hmem))),
          hoverloads, hdispatch⟩
  · rintro ⟨scope, hscope, hoverloads, rfl⟩
    rcases List.mem_append.mp hscope with hscope | hscope
    · obtain ⟨block, hblock, rfl⟩ := List.mem_map.mp hscope
      exact ⟨_, List.mem_append_left _ (List.mem_map_of_mem hblock),
        (dispatches_class (hblocks block hblock) 1 _).mpr ⟨rfl, hoverloads⟩⟩
    · refine ⟨bodyRows parts, List.mem_append_right _ (List.mem_singleton_self _), (dispatches_body hparts _).mpr ?_⟩
      rcases List.mem_append.mp hscope with hscope | hscope
      · obtain ⟨decl, hmem, rfl⟩ := List.mem_map.mp hscope
        exact Or.inr ⟨rfl, decl, (hclass decl).mpr hmem, hoverloads⟩
      · rw [List.mem_singleton.mp hscope] at hoverloads ⊢
        exact Or.inl ⟨rfl, hoverloads⟩

/-- The output of a file is its rows, grouped: without what is scheduled, the emitters of the body and of the types that
are defined on the way have the rows as their lines.  Such a type has the declarations of its members, and the body has
those of the statements, with a scope for each class.  Dispatchers are imported where grouping puts them, and nowhere
else; other symbols come from their module only if it provides the decorators of the runtime, too. -/
theorem generate_grouped (options : DeclOptions) (statements : List Statement) :
    let style := Style.ofOptions options
    let log := (fileParts style statements 0).1
    let parts := (fileParts style statements 0).2
    let imports := Imports.ofUses log.uses
    let output := ((emitFile style statements).exec .start).2
    output.emitter.lines.toList = ((bodyRows parts).map fun row => row.row.atDepth 0) ∧
      output.blocks = log.blocks.map (fun block => (block.decl.draft .empty).finish) ∧
      (∀ block ∈ log.blocks,
        (block.decl.draft .empty).lines.toList = ((block.decl.scopeRows 1).map fun row => row.row.atDepth 0)) ∧
      generate options statements =
        ⟨(Document.mk options.header imports ((fileRows log parts).map fun rows =>
          (ScopeRow.group rows).map (Row.atDepth 0))).render, log.diagnostics⟩ ∧
      (∀ block ∈ log.blocks, (∀ entry ∈ block.decl.members, entry.IsStub) ∧ ∃ members, block.IsTypeOf style members ∧
        Entry.names block.decl.members = members.filterMap Member.declared?) ∧
      Declares parts (statements.filterMap Statement.declared?)
        ((statements.filterMap Statement.class?).map ClassDecl.declared) ∧
      (∀ dispatch, (∃ rows ∈ fileRows log parts, ScopeRow.Dispatches dispatch rows) →
        imports.provides ⟨"functools", dispatch⟩) ∧
      ∀ symbol, imports.provides ⟨"functools", symbol⟩ →
        (∃ rows ∈ fileRows log parts, ScopeRow.Dispatches symbol rows) ∨
          options.runtimeModule = "functools" ∧ symbol ∈ ["external", "alias"] := by
  intro style log parts imports output
  obtain ⟨htypes, hdeclares⟩ := ensures_fileParts (hereditary_isTypeOf style) statements 0
  have huses := dispatches_fileParts style statements 0
  have hblocks : ∀ block ∈ log.blocks, ∀ entry ∈ block.decl.members, entry.IsStub := by
    intro block hblock
    obtain ⟨members, hmembers⟩ := htypes block hblock
    exact hmembers.names_eq.2
  have hneeded := exists_dispatches_iff hblocks hdeclares.stubs
  have houtput : output = Output.start.after log (draftBody parts) := exec_emitFile style statements
  refine ⟨?_, ?_, fun block hblock => (ClassCode.shows_draft (hblocks block hblock) 1).lines, ?_, ?_, hdeclares, ?_, ?_⟩
  · rw [houtput]
    exact (shows_draftBody hdeclares.stubs).lines
  · rw [houtput]
    exact List.nil_append _
  · rw [← blocks_eq hblocks hdeclares.stubs]
    show (⟨(output.document options).render, output.diagnostics⟩ : Generated) = _
    rw [houtput]
    rfl
  · intro block hblock
    obtain ⟨members, hmembers⟩ := htypes block hblock
    exact ⟨hblocks block hblock, members, hmembers, hmembers.names_eq.1⟩
  · intro dispatch hdispatch
    obtain ⟨scope, hscope, hoverloads, rfl⟩ := (hneeded dispatch).mp hdispatch
    exact (Imports.provides_ofUses _ _).mpr (huses.uses scope hscope hoverloads)
  · intro symbol hprovides
    rcases huses.only _ ((Imports.provides_ofUses _ _).mp hprovides) with hstyle | ⟨scope, hscope, hoverloads, heq⟩
    · have hmodule : options.runtimeModule = "functools" ∧ symbol ∈ ["external", "alias"] := by
        simpa [Style.symbols, style, Style.ofOptions, eq_comm, and_or_left] using hstyle
      exact Or.inr hmodule
    · refine Or.inl ((hneeded symbol).mpr ⟨scope, hscope, hoverloads, ?_⟩)
      exact congrArg Import.symbol heq

end Files

end StubGen.DeclFile
