import StubGen.DeclFile.Generator
import StubGen.Proofs.Stub.Declarations
import StubGen.Proofs.Stub.Draft

/-!
# What the generator writes

The generator writes what the outline of a file says: it has the outline's texts, its log, and the drafts of its code.

* `Output.after` is the output after a log.
* `Renders` relates an emission that gives a text to a piece of the outline, and `Writes` one that writes lines.
* `generate_eq`: the module of a file is the document of its outline.
-/

namespace StubGen

private theorem Imports.addTo_addTo (use : Import) (modules : List (String × List String)) :
    addTo use (addTo use modules) = addTo use modules := by
  induction modules with
  | nil => simp [addTo]
  | cons entry rest ih =>
    obtain ⟨module, symbols⟩ := entry
    rw [addTo]
    split
    · next hmodule => simp only [addTo, hmodule, if_true]; split <;> simp_all
    · next hmodule => rw [addTo, if_neg hmodule, ih]

/-- Using a symbol twice is using it once. -/
theorem Imports.add_add (imports : Imports) (use : Import) : (imports.add use).add use = imports.add use :=
  congrArg Imports.mk (addTo_addTo use imports.modules)

namespace DeclFile

variable {α β : Type}

/-! ### Outputs and logs -/

namespace Output

/-- The output with a log added, and another emitter. -/
def after (output : Output) (log : Log) (emitter : Emitter) : Output where
  emitter := emitter
  imports := log.uses.foldl Imports.add output.imports
  blocks := output.blocks ++ log.blocks.map Block.lines
  counter := output.counter + log.blocks.length
  diagnostics := output.diagnostics ++ log.diagnostics

@[simp] theorem emitter_after (output : Output) (log : Log) (emitter : Emitter) :
    (output.after log emitter).emitter = emitter := rfl

@[simp] theorem counter_after (output : Output) (log : Log) (emitter : Emitter) :
    (output.after log emitter).counter = output.counter + log.blocks.length := rfl

@[simp] theorem after_after (output : Output) (log more : Log) (emitter other : Emitter) :
    (output.after log emitter).after more other = output.after (log ++ more) other := by
  simp [after, Log.uses_append, List.foldl_append, Nat.add_assoc]

theorem after_empty_eq (output : Output) (emitter : Emitter) :
    output.after .empty emitter = { output with emitter := emitter } := by
  simp [after, Log.empty]

@[simp] theorem after_empty (output : Output) : output.after .empty output.emitter = output :=
  output.after_empty_eq output.emitter

end Output

namespace Emission

@[simp] theorem exec_pure (value : α) (output : Output) : (pure value : Emission α).exec output = (value, output) := rfl

@[simp] theorem exec_bind (first : Emission α) (next : α → Emission β) (output : Output) :
    (first >>= next).exec output = (next (first.exec output).1).exec (first.exec output).2 := rfl

@[simp] theorem exec_map (f : α → β) (emission : Emission α) (output : Output) :
    (f <$> emission).exec output = (f (emission.exec output).1, (emission.exec output).2) := rfl

theorem exec_forM_cons (emit : α → Emission Unit) (item : α) (rest : List α) (output : Output) :
    ((item :: rest).forM emit).exec output = (rest.forM emit).exec ((emit item).exec output).2 := rfl

@[simp] theorem exec_line (text : String) (output : Output) :
    (line text).exec output = ((), output.after .empty (output.emitter.line text)) := by
  rw [Output.after_empty_eq]
  rfl

@[simp] theorem exec_blank (count : Nat) (output : Output) :
    (blank count).exec output = ((), output.after .empty (output.emitter.blank count)) := by
  rw [Output.after_empty_eq]
  rfl

@[simp] theorem exec_indent (output : Output) :
    indent.exec output = ((), output.after .empty output.emitter.indent) := by
  rw [Output.after_empty_eq]
  rfl

@[simp] theorem exec_dedent (output : Output) :
    dedent.exec output = ((), output.after .empty output.emitter.dedent) := by
  rw [Output.after_empty_eq]
  rfl

@[simp] theorem exec_declare (scope : OverloadScope) (name : String) (output : Output) :
    (declare scope name).exec output =
      (scope.push name output.emitter.anchor.1, output.after .empty output.emitter.anchor.2) := by
  rw [Output.after_empty_eq]
  rfl

/-- A piece that defines no types leaves nothing behind but its log. -/
theorem exec_note {piece : Stubs α} (h : piece.Ensures (fun _ => False) fun _ => True) (output : Output) :
    (liftM piece : Emission α).exec output =
      ((piece output.counter).2, output.after (piece output.counter).1 output.emitter) := by
  have hblocks : (piece output.counter).1.blocks = [] := List.eq_nil_iff_forall_not_mem.mpr (h output.counter).1
  simp only [Output.after, hblocks, List.map_nil, List.append_nil, List.length_nil, Nat.add_zero]
  rfl

private theorem exec_insertAll (entries : List (Anchor × Nat)) (text : Nat → String) (output : Output) :
    (entries.forM fun entry => insertBefore entry.1 (text entry.2)).exec output =
      ((), output.after .empty (output.emitter.insertAll (entries.map fun entry => (entry.1, text entry.2)))) := by
  induction entries generalizing output with
  | nil => simp [Emitter.insertAll]
  | cons entry rest ih =>
    have hfirst : (insertBefore entry.1 (text entry.2)).exec output =
        ((), output.after .empty (output.emitter.insertBefore entry.1 (text entry.2))) := by
      rw [Output.after_empty_eq]
      rfl
    rw [exec_forM_cons, hfirst, ih]
    simp [Emitter.insertAll]

/-- The log of a scope with this dispatcher, if something in it is overloaded. -/
def dispatchLog (dispatch : String) (overloads : Bool) : Log :=
  if overloads then ⟨[⟨"functools", dispatch⟩], [], []⟩ else .empty

/-- Using a dispatcher again for another name of the scope changes nothing. -/
private theorem after_dispatchLog (dispatch : String) (first second : Bool) (output : Output) (emitter : Emitter) :
    output.after (dispatchLog dispatch first ++ dispatchLog dispatch second) emitter =
      output.after (dispatchLog dispatch (first || second)) emitter := by
  cases first <;> cases second <;> simp [dispatchLog, Output.after, Imports.add_add]

/-- At the end of a scope its decorators are scheduled, and the dispatcher is used if there are any. -/
theorem exec_finishOverloads (dispatch : String) (scope : OverloadScope) (output : Output) :
    (finishOverloads dispatch scope).exec output =
      ((), output.after (dispatchLog dispatch (scope.any fun entry => 2 ≤ entry.2.length))
        (output.emitter.insertAll (scope.decorators dispatch))) := by
  induction scope generalizing output with
  | nil => simp [finishOverloads, OverloadScope.decorators, Emitter.insertAll, dispatchLog]
  | cons entry rest ih =>
    obtain ⟨name, anchors⟩ := entry
    have hdecorate : ∀ output, (decorate dispatch name anchors).exec output = ((), output.after .empty
        (output.emitter.insertAll (anchors.zipIdx.map fun entry => (entry.1, overloadText dispatch name entry.2)))) :=
      exec_insertAll anchors.zipIdx (overloadText dispatch name)
    have hname : (do
        if 2 ≤ anchors.length then
          Stubs.use ⟨"functools", dispatch⟩
          decorate dispatch name anchors : Emission Unit).exec output =
        ((), output.after (dispatchLog dispatch (2 ≤ anchors.length))
          (output.emitter.insertAll (OverloadScope.decoratorsOf dispatch name anchors))) := by
      by_cases hcount : 2 ≤ anchors.length
      · simp only [hcount, if_true, exec_bind, exec_note (.use _), hdecorate]
        simp [OverloadScope.decoratorsOf, hcount, dispatchLog, Stubs.use]
      · simp [hcount, dispatchLog, OverloadScope.decoratorsOf, Emitter.insertAll]
    calc (finishOverloads dispatch ((name, anchors) :: rest)).exec output
      _ = (finishOverloads dispatch rest).exec (output.after (dispatchLog dispatch (2 ≤ anchors.length))
            (output.emitter.insertAll (OverloadScope.decoratorsOf dispatch name anchors))) :=
        congrArg _ (congrArg _ hname)
      _ = _ := by
        rw [ih]
        simp [after_dispatchLog, OverloadScope.decorators, Emitter.insertAll]

end Emission

/-! ### Overloads of a scope -/

/-- The scope has as many anchors for a name as declarations have it. -/
def OverloadScope.Counts (decls : List Entry) (scope : OverloadScope) : Prop :=
  ∃ anchors, scope.Is anchors ∧ ∀ name, (anchors name).length = Entry.countOf name decls

namespace OverloadScope.Counts

variable {decls : List Entry} {scope : OverloadScope}

theorem any_eq (h : scope.Counts decls) : (scope.any fun entry => 2 ≤ entry.2.length) = Entry.hasOverloads decls := by
  obtain ⟨anchors, ⟨names, -, rfl, hmem⟩, hlength⟩ := h
  rw [Bool.eq_iff_iff, Entry.hasOverloads_iff]
  constructor
  · intro hany
    obtain ⟨entry, hentry, hcount⟩ := List.any_eq_true.mp hany
    obtain ⟨name, -, rfl⟩ := List.mem_map.mp hentry
    exact ⟨name, by simpa [hlength] using hcount⟩
  · rintro ⟨name, hcount⟩
    rw [← hlength] at hcount
    have hname : name ∈ names := (hmem name).mpr (List.length_pos_iff.mp (by omega))
    exact List.any_eq_true.mpr ⟨_, List.mem_map_of_mem hname, by simpa using hcount⟩

theorem opened (emitter : Emitter) : (Draft.opened emitter).scope.Counts [] :=
  ⟨fun _ => [], is_nil fun _ => rfl, fun _ => rfl⟩

theorem entry {draft : Draft} (h : draft.scope.Counts decls) (decl : Entry) :
    (draft.entry decl).scope.Counts (decls ++ [decl]) := by
  obtain ⟨anchors, hanchors, hlength⟩ := h
  cases hname : decl.name with
  | none =>
    refine ⟨anchors, ?_, fun name => ?_⟩
    · simpa [Draft.entry, hname, Draft.write] using hanchors
    · rw [hlength, Entry.countOf, Entry.countOf, List.countP_append, List.countP_singleton]
      simp [hname]
  | some name =>
    refine ⟨added name (draft.write decl.ahead).emitter.anchor.1 anchors, ?_, fun other => ?_⟩
    · rw [Draft.entry, hname]
      exact hanchors.push name _
    · rw [added, Entry.countOf, List.countP_append, ← Entry.countOf, ← hlength, List.countP_singleton]
      by_cases heq : other = name
      · simp [heq, hname]
      · simp [heq, hname, Ne.symm heq]

theorem entries {draft : Draft} (h : draft.scope.Counts decls) (more : List Entry) :
    (draft.entries more).scope.Counts (decls ++ more) := by
  induction more generalizing decls draft with
  | nil => simpa [Draft.entries] using h
  | cons decl rest ih => simpa [Draft.entries] using ih (h.entry decl)

theorem parts {draft : Draft} (h : draft.scope.Counts decls) (more : List Part) :
    (draft.parts more).scope.Counts (decls ++ more.map Part.toEntry) := by
  induction more generalizing decls draft with
  | nil => simpa [Draft.parts] using h
  | cons part rest ih =>
    have hpart : (draft.part part).scope.Counts (decls ++ [part.toEntry]) := by
      cases part with
      | entry decl => exact h.entry decl
      | scope decl =>
        obtain ⟨anchors, hanchors, hlength⟩ := h
        refine ⟨anchors, hanchors, fun name => ?_⟩
        rw [hlength, Entry.countOf, Entry.countOf, List.countP_append, List.countP_singleton]
        simp [Part.toEntry, Entry.plain]
    simpa [Draft.parts] using ih hpart

end OverloadScope.Counts

/-! ### Emissions as pieces -/

open Emission

/-- The emission does what the act says, which takes the emitter to a piece with a result and the emitter behind it. -/
def Acts (emission : Emission α) (act : Emitter → Stubs (α × Emitter)) : Prop :=
  ∀ output, emission.exec output = ((act output.emitter output.counter).2.1,
    output.after (act output.emitter output.counter).1 (act output.emitter output.counter).2.2)

/-- The emission gives the text of the piece. -/
def Renders (emission : Emission α) (piece : Stubs α) : Prop :=
  Acts emission fun emitter => do return (← piece, emitter)

/-- The emission writes the code of the piece. -/
def Writes (emission : Emission Unit) (piece : Stubs (List Code)) : Prop :=
  Acts emission fun emitter => do return ((), emitter.writeAll (← piece))

/-- Uses the dispatcher of a scope, if something in it is overloaded. -/
def useIf (dispatch : String) (overloads : Bool) : Stubs Unit := fun _ => (dispatchLog dispatch overloads, ())

theorem useDispatch_eq (dispatch : String) (entries : List Entry) :
    useDispatch dispatch entries = useIf dispatch (Entry.hasOverloads entries) := by
  funext count
  unfold useDispatch useIf dispatchLog
  split <;> rfl

namespace Acts

variable {emission : Emission α} {act : Emitter → Stubs (α × Emitter)}

theorem congr {other : Emitter → Stubs (α × Emitter)} (h : Acts emission act)
    (heq : ∀ emitter, act emitter = other emitter) : Acts emission other := by rwa [← funext heq]

theorem pure (value : α) : Acts (Pure.pure value) fun emitter => Pure.pure (value, emitter) := by
  intro output
  simp [Stubs.pure_apply]

theorem bind {next : α → Emission β} {acts : α → Emitter → Stubs (β × Emitter)} (h : Acts emission act)
    (hnext : ∀ value, Acts (next value) (acts value)) :
    Acts (emission >>= next) fun emitter => act emitter >>= fun result => acts result.1 result.2 := by
  intro output
  rw [exec_bind, h output, hnext]
  simp [Stubs.bind_apply]

theorem line (text : String) : Acts (Emission.line text) fun emitter => Pure.pure ((), emitter.line text) :=
  exec_line text

theorem blank (count : Nat) : Acts (Emission.blank count) fun emitter => Pure.pure ((), emitter.blank count) :=
  exec_blank count

theorem indent : Acts Emission.indent fun emitter => Pure.pure ((), emitter.indent) := exec_indent

theorem dedent : Acts Emission.dedent fun emitter => Pure.pure ((), emitter.dedent) := exec_dedent

theorem declare (scope : OverloadScope) (name : String) : Acts (Emission.declare scope name) fun emitter =>
    Pure.pure (OverloadScope.push name emitter.anchor.1 scope, emitter.anchor.2) := exec_declare scope name

theorem finishOverloads (dispatch : String) (scope : OverloadScope) : Acts (Emission.finishOverloads dispatch scope)
    fun emitter => do
      useIf dispatch (scope.any fun entry => 2 ≤ entry.2.length)
      return ((), emitter.insertAll (OverloadScope.decorators dispatch scope)) := by
  intro output
  rw [exec_finishOverloads]
  simp [Stubs.map_apply, useIf]

/-- A piece that defines no types can be used as it is. -/
theorem note {piece : Stubs α} (h : piece.Ensures (fun _ => False) fun _ => True) : Renders (liftM piece) piece := by
  intro output
  rw [exec_note h]
  simp [Stubs.map_apply]

end Acts

namespace Renders

theorem pure (value : α) : Renders (Pure.pure value) (Pure.pure value) :=
  (Acts.pure value).congr fun _ => by simp

theorem bind {first : Emission α} {piece : Stubs α} {next : α → Emission β} {others : α → Stubs β}
    (hfirst : Renders first piece) (hnext : ∀ value, Renders (next value) (others value)) :
    Renders (first >>= next) (piece >>= others) :=
  (Acts.bind hfirst hnext).congr fun _ => by simp

theorem map {first : Emission α} {piece : Stubs α} (h : Renders first piece) (f : α → β) :
    Renders (do return f (← first)) (do return f (← piece)) := h.bind fun value => pure (f value)

theorem mapM {f : β → Emission α} {g : β → Stubs α} (h : ∀ item, Renders (f item) (g item)) (items : List β) :
    Renders (items.mapM f) (items.mapM g) := by
  induction items with
  | nil => exact pure []
  | cons item rest ih =>
    rw [List.mapM_cons, List.mapM_cons]
    exact (h item).bind fun first => ih.map (first :: ·)

end Renders

/-! ### Lines -/

private theorem renders_use (symbol : Import) : Renders (liftM (Stubs.use symbol)) (Stubs.use symbol) := .note (.use _)

private theorem renders_report (kind message : String) :
    Renders (liftM (Stubs.report kind message)) (Stubs.report kind message) := .note (.report _ _)

theorem writes_alias (style : Style) (recased : Recased) :
    Writes (emitAlias style recased) (aliasLines style recased) := by
  have hruntime : Renders (liftM (useRuntime style "alias")) (useRuntime style "alias") := renders_use _
  unfold emitAlias aliasLines
  cases recased.declared with
  | none => exact (Acts.pure ()).congr fun _ => by simp [Emitter.writeAll]
  | some declared =>
    exact (Acts.bind hruntime fun _ => .line _).congr fun _ => by simp [Emitter.writeAll, Emitter.write]

theorem writes_unsupportedName (kind text : String) : Writes (emitUnsupportedName kind text) (reportName kind text) :=
  (Acts.bind (renders_report _ _) fun _ => .line _).congr fun _ => by simp [reportName, Emitter.writeAll, Emitter.write]

/-- The parts of texts that define no types. -/
private theorem plain (style : Style) : Closed style fun piece => piece.Ensures (fun _ => False) fun _ => True :=
  closed_ensures style _

theorem writes_property (style : Style) (recased : Recased) (readonly static : Bool) (type : String) :
    Writes (emitProperty style recased readonly static type) (propertyCode style recased readonly static type) := by
  have hannotated : Renders (liftM (annotated style recased type)) (annotated style recased type) :=
    .note ((plain style).annotated recased type)
  unfold emitProperty propertyCode
  cases static with
  | true =>
    exact (Acts.bind hannotated fun _ => .line _).congr fun _ => by
      simp [bindingCode, Emitter.writeAll, Emitter.write]
  | false =>
    cases readonly with
    | true =>
      refine ((Acts.line _).bind fun _ => (writes_alias style recased).bind fun _ => (Acts.line _).bind fun _ =>
        Acts.indent.bind fun _ => (Acts.line _).bind fun _ => Acts.dedent.bind fun _ => Acts.pure ()).congr fun _ => ?_
      simp [getterCode, Emitter.writeAll_append, Emitter.writeAll, Emitter.write]
    | false =>
      refine ((Acts.line _).bind fun _ => (writes_alias style recased).bind fun _ => (Acts.line _).bind fun _ =>
        Acts.indent.bind fun _ => (Acts.line _).bind fun _ => Acts.dedent.bind fun _ => (Acts.blank 1).bind fun _ =>
          (Acts.line _).bind fun _ => (writes_alias style recased).bind fun _ => Acts.line _).congr fun _ => ?_
      simp [getterCode, setterCode, Emitter.writeAll_append, Emitter.writeAll, Emitter.write]

/-! ### Classes and members -/

/-- The emission writes the class of the piece. -/
def Drafts (emission : Emission Unit) (piece : Stubs ClassCode) : Prop :=
  Acts emission fun emitter => do return ((), (← piece).draft emitter)

/-- The emission writes the declarations of the piece in a scope.  It gives the scope behind them, and whether there is
a statement so far. -/
def Enters (scope : OverloadScope) (emitted : Bool) (emission : Emission (OverloadScope × Bool))
    (piece : Stubs (List Entry)) : Prop :=
  Acts emission fun emitter => do
    let draft := (Draft.mk scope emitter).entries (← piece)
    return ((draft.scope, emitted), draft.emitter)

private theorem acts_placeholder (emitted : Bool) : Acts (emitPlaceholder emitted) fun emitter =>
    pure ((), emitter.writeAll (if emitted then [] else [.line "..."])) := by
  cases emitted with
  | false => exact .line "..."
  | true => exact .pure ()

theorem drafts_class (style : Style) (recased : Recased) {bases : Emission (List String)}
    {texts : Stubs (List String)} (hbases : Renders bases texts) (isInterface isEmpty : Bool)
    {members : Emission (OverloadScope × Bool)} {entries : Stubs (List Entry)}
    (hmembers : Enters [] (!isEmpty) members entries) :
    Drafts (emitClass style recased bases isInterface members)
      (classCode style recased texts isInterface entries isEmpty) := by
  have hruntime : Renders (liftM (useRuntime style "external")) (useRuntime style "external") := renders_use _
  have hheader : ∀ bases, Renders (liftM (classHeader recased.name bases isInterface))
      (classHeader recased.name bases isInterface) := fun bases => .note ((plain style).classHeader _ bases isInterface)
  have hcounts : ∀ emitter decls, (((⟨[], emitter⟩ : Draft).entries decls).scope.any fun entry =>
      2 ≤ entry.2.length) = Entry.hasOverloads decls := fun emitter decls =>
    ((OverloadScope.Counts.opened emitter).entries decls).any_eq
  unfold emitClass
  refine ((Acts.blank 2).bind fun _ => Acts.bind hruntime fun _ => (Acts.line _).bind fun _ =>
    (writes_alias style recased).bind fun _ => Acts.bind hbases fun bases => Acts.bind (hheader bases) fun _ =>
      (Acts.line _).bind fun _ => Acts.indent.bind fun _ => Acts.bind hmembers fun result =>
        (acts_placeholder result.2).bind fun _ => (Acts.finishOverloads _ result.1).bind fun _ => Acts.dedent).congr
          fun emitter => ?_
  cases isEmpty with
  | false =>
    simp [classCode, ClassCode.draft, useDispatch_eq, Draft.opened, Draft.close, hcounts, Emitter.writeAll_append,
      Emitter.writeAll, Emitter.write]
  | true =>
    have hplain : ∀ draft : Draft, ∀ decls, draft.entries (decls ++ [.plain [.line "..."]]) =
        ⟨(draft.entries decls).scope, (draft.entries decls).emitter.line "..."⟩ := by
      intro draft decls
      simp [Draft.entries, Draft.entry, Entry.plain, Draft.write, Emitter.writeAll, Emitter.write]
    have hoverloads : ∀ decls, Entry.hasOverloads (decls ++ [.plain [.line "..."]]) = Entry.hasOverloads decls := by
      intro decls
      rw [← hcounts emitter, ← hcounts emitter, hplain]
    simp [classCode, ClassCode.draft, useDispatch_eq, Draft.opened, Draft.close, hcounts, hplain, hoverloads,
      Emitter.writeAll_append, Emitter.writeAll, Emitter.write]

theorem renders_reference (name : String) {arguments : Emission (List String)} {texts : Stubs (List String)}
    (h : Renders arguments texts) : Renders (renderReference name arguments) (referenceText name texts) :=
  Renders.bind (.note ((plain ⟨"", fun _ => ""⟩).referenceHead name)) fun _ => h.map _

/-! ### Types and members -/

private theorem renders_typing (symbol : String) (hsymbol : symbol ∈ typingSymbols := by decide) :
    Renders (liftM (typing symbol)) (typing symbol) := .note ((plain ⟨"", fun _ => ""⟩).typing symbol hsymbol)

private theorem acts_separator (separate : Bool) : Acts (emitSeparator separate) fun emitter =>
    pure ((), emitter.writeAll (separator separate)) := by
  cases separate with
  | false => exact .pure ()
  | true => exact .blank 1

/-- A type that is written to an emitter of its own is a block of the log. -/
theorem renders_synthesize (typeName : Nat → String) {body : String → Emission Unit} {decl : String → Stubs ClassCode}
    (h : ∀ name, Drafts (body name) (decl name)) :
    Renders (synthesize typeName body) (Stubs.synthesize typeName decl) := by
  intro output
  have hbody := h (typeName (output.counter + 1)) { output with emitter := .empty, counter := output.counter + 1 }
  have hrun : (synthesize typeName body).exec output =
      (typeName (output.counter + 1),
        let inner := ((body (typeName (output.counter + 1))).exec
          { output with emitter := .empty, counter := output.counter + 1 }).2
        { inner with emitter := output.emitter, blocks := inner.blocks ++ [inner.emitter.finish] }) := rfl
  rw [hrun, hbody]
  simp [Stubs.map_apply, Stubs.synthesize, Output.after, Block.lines]
  omega

/-- What a member adds to a scope. -/
def EntersMember (scope : OverloadScope) (emitted : Bool) (emission : Emission (OverloadScope × Bool))
    (piece : Stubs Entry) : Prop :=
  Acts emission fun emitter => do
    let draft := (Draft.mk scope emitter).entry (← piece)
    return ((draft.scope, emitted), draft.emitter)

mutual

theorem renders_type (style : Style) (type : TypeExpr) : Renders (renderType style type) (typeText style type) := by
  match type with
  | .keyword keyword =>
    exact .note ((plain style).hostText (source_of_mem_knownHosts (hostType_mem_knownHosts keyword)))
  | .parenthesized inner => exact renders_type style inner
  | .function params result =>
    refine (renders_optionalType style result).bind fun _ => (renders_typing _).bind fun _ => ?_
    split
    · exact .pure _
    · exact (renders_paramTypes style params).map _
  | .union items => exact (renders_types style items).map _
  | .intersection [] => exact renders_typing _
  | .intersection (first :: _) => exact renders_type style first
  | .array element => exact (renders_type style element).bind fun _ => (renders_typing _).map _
  | .tuple items =>
    refine (renders_typing _).bind fun _ => ?_
    split
    · exact .pure _
    · exact (renders_types style items).map _
  | .literal value => exact .note ((plain style).literalText value)
  | .query name => exact (renders_typing _).map _
  | .members members =>
    exact renders_synthesize style.typeName fun name => drafts_class style ⟨name, none⟩ (.pure []) true _
      (by simpa using enters_members style [] false members)
  | .reference name arguments => exact renders_reference name (renders_types style arguments)
  | .operator operator operand =>
    rw [renderType, typeText]
    split
    · exact .pure _
    · exact renders_type style operand
  | .indexedAccess => exact (renders_report _ _).bind fun _ => renders_typing _
  | .unsupported kind => exact (renders_report _ _).bind fun _ => renders_typing _

theorem renders_types (style : Style) (types : List TypeExpr) :
    Renders (renderTypes style types) (typeTexts style types) := by
  match types with
  | [] => exact .pure _
  | type :: rest => exact (renders_type style type).bind fun _ => (renders_types style rest).map _

theorem renders_optionalType (style : Style) (type : Option TypeExpr) :
    Renders (renderOptionalType style type) (optionalTypeText style type) := by
  match type with
  | some type => exact renders_type style type
  | none => exact renders_typing _

theorem renders_paramTypes (style : Style) (params : List Param) :
    Renders (renderParamTypes style params) (paramTypes style params) := by
  match params with
  | [] => exact .pure _
  | .mk _ type optional _ :: rest =>
    exact (renders_optionalType style type).bind fun _ =>
      Renders.bind (.note ((plain style).optionalText optional _)) fun _ => (renders_paramTypes style rest).map _

theorem renders_param (style : Style) (position : Nat) (param : Param) :
    Renders (renderParam style position param) (paramText style position param) := by
  match param with
  | .mk name type optional rest =>
    rw [renderParam, paramText]
    cases paramName? position name with
    | none => exact .pure _
    | some name =>
      cases rest with
      | true =>
        cases type with
        | none => exact (renders_optionalType style none).map _
        | some type =>
          cases type with
          | array element => exact (renders_type style element).map _
          | _ => exact (renders_optionalType style (some _)).map _
      | false =>
        cases type with
        | none => exact Renders.map (.note ((plain style).untypedParam name optional)) _
        | some type =>
          exact (renders_type style type).bind fun text =>
            Renders.map (.note ((plain style).typedParam name optional text)) _

theorem renders_params (style : Style) (position : Nat) (params : List Param) :
    Renders (renderParams style position params) (paramTexts style position params) := by
  match params with
  | [] => exact .pure _
  | param :: others =>
    exact (renders_param style position param).bind fun _ => (renders_params style (position + 1) others).map _

theorem renders_result (style : Style) (type : Option TypeExpr) :
    Renders (renderResult style type) (resultText style type) := by
  cases type with
  | none => exact (renders_typing _).map _
  | some type =>
    cases type with
    | reference name arguments =>
      cases arguments with
      | nil =>
        rw [renderResult, resultText]
        split
        · exact (renders_typing _).map _
        · exact (renders_reference name (.pure _)).map _
      | cons inner others =>
        rw [renderResult, resultText]
        split
        · exact (renders_type style inner).map _
        · exact (renders_reference name (renders_types style (inner :: others))).map _
    | _ => exact (renders_type style _).map _

theorem enters_member (style : Style) (scope : OverloadScope) (separate : Bool) (member : Member) :
    EntersMember scope member.isEmitted (emitMember style scope separate member)
      (memberEntry style separate member) := by
  match member with
  | .property (.other kind text) .. =>
    refine ((writes_unsupportedName kind text).bind fun _ => .pure (scope, false)).congr fun _ => ?_
    simp [memberEntry, Draft.entry, Entry.plain, Draft.write, Emitter.writeAll, Member.isEmitted]
  | .property (.ident name) type optional readonly static =>
    refine ((acts_separator separate).bind fun _ => Acts.bind (renders_optionalType style type) fun text =>
      Acts.bind (Acts.note ((plain style).optionalText optional text)) fun text =>
        (writes_property style (.snake name) readonly static text).bind fun _ => .pure (scope, true)).congr fun _ => ?_
    simp [memberEntry, Draft.entry, Draft.write, Member.isEmitted]
  | .method (.other kind text) .. =>
    refine ((writes_unsupportedName kind text).bind fun _ => .pure (scope, false)).congr fun _ => ?_
    simp [memberEntry, Draft.entry, Entry.plain, Draft.write, Emitter.writeAll, Member.isEmitted]
  | .method (.ident name) params result =>
    refine ((acts_separator separate).bind fun _ => (Acts.declare scope _).bind fun _ =>
      (writes_alias style _).bind fun _ => Acts.bind (renders_params style 0 params) fun texts =>
        Acts.bind (renders_result style result) fun result => (Acts.line _).bind fun _ => .pure (_, true)).congr
          fun _ => ?_
    simp [memberEntry, Draft.entry, Draft.write, Draft.declare, Member.isEmitted, Emitter.writeAll_append,
      Emitter.writeAll, Emitter.write, stubLine]
  | .constructor params =>
    refine ((acts_separator separate).bind fun _ => (Acts.declare scope _).bind fun _ =>
      Acts.bind (renders_params style 0 params) fun texts => (Acts.line _).bind fun _ => .pure (_, true)).congr
          fun _ => ?_
    simp [memberEntry, Draft.entry, Draft.write, Draft.declare, Member.isEmitted, Emitter.writeAll, Emitter.write]
  | .unsupported kind =>
    refine (Acts.bind (renders_report kind _) fun _ => .pure (scope, false)).congr fun _ => ?_
    simp [memberEntry, Draft.entry, Entry.plain, Draft.write, Emitter.writeAll, Member.isEmitted]

theorem enters_members (style : Style) (scope : OverloadScope) (emitted : Bool) (members : List Member) :
    Enters scope (emitted || members.any Member.isEmitted) (emitMembers style scope emitted members)
      (memberEntries style emitted members) := by
  match members with
  | [] => exact (Acts.pure (scope, emitted)).congr fun _ => by simp [memberEntries, Draft.entries]
  | member :: rest =>
    refine (Acts.bind (enters_member style scope emitted member) fun result =>
      enters_members style result.1 (emitted || result.2) rest).congr fun _ => ?_
    simp [memberEntries, Draft.entries, Bool.or_assoc]

end

/-! ### Statements -/

/-- The emission writes the parts of the piece in the scope of a body.  It gives the scope behind them. -/
def EntersParts (scope : OverloadScope) (emission : Emission OverloadScope) (piece : Stubs (List Part)) : Prop :=
  Acts emission fun emitter => do
    let draft := (Draft.mk scope emitter).parts (← piece)
    return (draft.scope, draft.emitter)

/-- Emissions one after the other write their parts one after the other. -/
theorem EntersParts.foldlM {emit : OverloadScope → β → Emission OverloadScope} {write : β → Stubs (List Part)}
    (h : ∀ scope item, EntersParts scope (emit scope item) (write item)) (scope : OverloadScope) (items : List β) :
    EntersParts scope (items.foldlM emit scope) (do return (← items.mapM write).flatten) := by
  induction items generalizing scope with
  | nil => exact (Acts.pure scope).congr fun _ => by simp [Draft.parts]
  | cons item rest ih =>
    rw [List.foldlM_cons]
    refine (Acts.bind (h scope item) fun scope => ih scope).congr fun _ => ?_
    simp [Draft.parts]

theorem EntersParts.forM {emit : β → Emission Unit} {write : β → Stubs (List Part)}
    (h : ∀ scope item, EntersParts scope (do emit item; return scope) (write item)) (scope : OverloadScope)
    (items : List β) :
    EntersParts scope (do items.forM emit; return scope) (do return (← items.mapM write).flatten) := by
  induction items generalizing scope with
  | nil => exact (Acts.pure scope).congr fun _ => by simp [Draft.parts]
  | cons item rest ih =>
    have hcons : (do (item :: rest).forM emit; return scope : Emission OverloadScope) = (do
        let scope ← (do emit item; return scope)
        rest.forM emit
        return scope) := by
      rw [bind_assoc]
      rfl
    rw [hcons]
    refine (Acts.bind (h scope item) fun scope => ih scope).congr fun _ => ?_
    simp [Draft.parts]

private theorem enters_reported (scope : OverloadScope) (kind message : String) :
    EntersParts scope (do Stubs.report kind message; return scope) (do Stubs.report kind message; return []) :=
  (Acts.bind (renders_report kind message) fun _ => .pure scope).congr fun _ => by simp [Draft.parts]

section Statements

variable (style : Style) (scope : OverloadScope)

theorem renders_base (base : Base) : Renders (renderBase style base)
    (do return referenceName base.name ++ argumentsText (← typeTexts style base.arguments)) :=
  (renders_types style base.arguments).map _

theorem enters_classDecl (isInterface : Bool) (decl : ClassDecl) :
    EntersParts scope (do emitClassDecl style isInterface decl; return scope) (writeClass style isInterface decl) := by
  obtain ⟨name, heritage, members⟩ := decl
  cases name with
  | other kind text => exact enters_reported scope kind _
  | ident name =>
    have hmembers := enters_members style [] false members
    have hclass := drafts_class style (.pascal name) (Renders.mapM (renders_base style) heritage.flatten) isInterface
      (!members.any Member.isEmitted) (by simpa using hmembers)
    exact (Acts.bind hclass fun _ => .pure scope).congr fun _ => by simp [writeClass, Draft.parts, Draft.part]

theorem enters_function (name : Name) (params : List Param) (result : Option TypeExpr) :
    EntersParts scope (emitFunction style scope name params result) (writeFunction style name params result) := by
  cases name with
  | other kind text => exact enters_reported scope _ _
  | ident name =>
    refine ((Acts.blank 2).bind fun _ => (Acts.declare scope _).bind fun scope => (writes_alias style _).bind fun _ =>
      Acts.bind (renders_params style 0 params) fun texts => Acts.bind (renders_result style result) fun result =>
        (Acts.line _).bind fun _ => .pure scope).congr fun _ => ?_
    simp [writeFunction, Draft.parts, Draft.part, Draft.entry, Draft.write, Draft.declare, stubLine,
      Emitter.writeAll_append, Emitter.writeAll, Emitter.write]

theorem enters_typeAlias (name : Name) (type : TypeExpr) :
    EntersParts scope (do emitTypeAlias style name type; return scope) (writeTypeAlias style name type) := by
  cases name with
  | other kind text => exact enters_reported scope _ _
  | ident name =>
    refine (Acts.bind ((Acts.blank 2).bind fun _ => Acts.bind (renders_type style type) fun _ => Acts.line _) fun _ =>
      .pure scope).congr fun _ => ?_
    simp [writeTypeAlias, Draft.parts, Draft.part, Draft.entry, Entry.plain, Draft.write, Emitter.writeAll,
      Emitter.write]

private theorem acts_enumerators (members : List EnumMember) : Acts (members.mapM emitEnumerator) fun emitter => do
    return (members.map fun member => member.name.ident?.isSome,
      emitter.writeAll (← members.mapM enumeratorCode).flatten) := by
  induction members with
  | nil => exact (Acts.pure []).congr fun _ => by simp [Emitter.writeAll]
  | cons member rest ih =>
    obtain ⟨name, value⟩ := member
    rw [List.mapM_cons]
    cases name with
    | other kind text =>
      refine (Acts.bind ((writes_unsupportedName kind text).bind fun _ => .pure false) fun first =>
        ih.bind fun others => .pure (first :: others)).congr fun _ => ?_
      simp [enumeratorCode, Name.ident?, Emitter.writeAll_append]
    | ident name =>
      refine (Acts.bind (Acts.bind (.note ((plain ⟨"", fun _ => ""⟩).enumeratorValue value)) fun _ =>
        (Acts.line _).bind fun _ => .pure true) fun first =>
          ih.bind fun others => .pure (first :: others)).congr fun _ => ?_
      simp [enumeratorCode, Name.ident?, Emitter.writeAll, Emitter.write]

theorem enters_enum (name : Name) (members : List EnumMember) :
    EntersParts scope (do emitEnum name members; return scope) (writeEnum name members) := by
  cases name with
  | other kind text => exact enters_reported scope _ _
  | ident name =>
    refine (Acts.bind ((Acts.blank 2).bind fun _ => Acts.bind (renders_use _) fun _ => (Acts.line _).bind fun _ =>
      Acts.indent.bind fun _ => (acts_enumerators members).bind fun emitted => (acts_placeholder _).bind fun _ =>
        Acts.dedent) fun _ => .pure scope).congr fun _ => ?_
    simp [writeEnum, Draft.parts, Draft.part, Draft.entry, Entry.plain, Draft.write, Emitter.writeAll,
      Emitter.write, Emitter.writeAll_append]

theorem enters_variable (declared : Variable) :
    EntersParts scope (do emitVariable style declared; return scope) (writeVariable style declared) := by
  obtain ⟨name, type⟩ := declared
  cases name with
  | other kind text => exact enters_reported scope _ _
  | ident name =>
    refine (Acts.bind ((Acts.blank 2).bind fun _ => Acts.bind (renders_optionalType style type) fun text =>
      Acts.bind (.note ((plain style).annotated (.snake name) text)) fun _ => Acts.line _) fun _ =>
        .pure scope).congr fun _ => ?_
    simp [writeVariable, Draft.parts, Draft.part, Draft.entry, Entry.plain, Draft.write, Emitter.writeAll,
      Emitter.write]

theorem enters_statement (statement : Statement) :
    EntersParts scope (emitStatement style scope statement) (statementParts style statement) := by
  cases statement with
  | classDecl decl => exact enters_classDecl style scope false decl
  | interface decl => exact enters_classDecl style scope true decl
  | function name params result => exact enters_function style scope name params result
  | typeAlias name type => exact enters_typeAlias style scope name type
  | enum name members => exact enters_enum scope name members
  | variableDecls declared => exact EntersParts.forM (enters_variable style) scope declared
  | module => exact (Acts.pure scope).congr fun _ => by simp [statementParts, Draft.parts]
  | unsupported kind => exact enters_reported scope kind _

end Statements

/-- Writing a file drafts its body. -/
theorem acts_file (style : Style) (statements : List Statement) : Acts (emitFile style statements) fun emitter => do
    return ((), ((Draft.opened emitter).parts (← fileParts style statements)).close "singledispatch") := by
  have hcounts : ∀ emitter parts, (((⟨[], emitter⟩ : Draft).parts parts).scope.any fun entry =>
      2 ≤ entry.2.length) = Entry.hasOverloads (parts.map Part.toEntry) := fun emitter parts =>
    ((OverloadScope.Counts.opened emitter).parts parts).any_eq
  refine (Acts.bind (EntersParts.foldlM (enters_statement style) [] statements) fun scope =>
    Acts.finishOverloads _ scope).congr fun emitter => ?_
  simp [fileParts, useDispatch_eq, Draft.opened, Draft.close, hcounts]

/-! ### Files -/

/-- The lines of a type are those of its code. -/
theorem Block.lines_eq {block : Block} (h : ∀ entry ∈ block.decl.members, entry.IsStub) :
    block.lines = Code.lines block.decl.code := by
  rw [Block.lines, (ClassCode.shows_draft h 1).finish_eq, ClassCode.group_scopeRows h, Code.lines_eq,
    Code.allLinesAt_eq]

/-- The lines of a body are those of its code. -/
theorem finish_draftBody {parts : List Part} (h : ∀ part ∈ parts, part.IsStub) :
    (draftBody parts).finish = Code.lines (bodyCode parts) := by
  rw [(shows_draftBody h).finish_eq, group_bodyRows h, Code.lines_eq, Code.allLinesAt_eq]

/-- The output of a file has the log and the drafts of its outline. -/
theorem exec_emitFile (style : Style) (statements : List Statement) : ((emitFile style statements).exec .start).2 =
    Output.start.after (fileParts style statements 0).1 (draftBody (fileParts style statements 0).2) := by
  rw [acts_file]
  simp [Stubs.map_apply, draftBody, Output.start]

/-- The module of a file is the document of its outline. -/
theorem generate_eq (options : DeclOptions) (statements : List Statement) :
    let outline := fileParts (.ofOptions options) statements 0
    generate options statements = ⟨(document options outline.1 outline.2).render, outline.1.diagnostics⟩ := by
  intro outline
  have hblocks : ∀ block ∈ outline.1.blocks, block.lines = Code.lines block.decl.code := by
    intro block hblock
    obtain ⟨members, hmembers⟩ := (ensures_fileParts (hereditary_isTypeOf _) statements 0).1 block hblock
    exact Block.lines_eq hmembers.names_eq.2
  have hbody := finish_draftBody (declares_fileParts (.ofOptions options) statements 0).stubs
  rw [generate]
  simp only [exec_emitFile]
  simp [Output.document, Output.after, Output.start, document, Imports.ofUses, hbody,
    List.map_congr_left hblocks, outline]

end DeclFile

end StubGen
