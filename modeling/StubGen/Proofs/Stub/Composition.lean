import StubGen.Proofs.Layout.FirstUse
import StubGen.Proofs.Layout.Sections
import StubGen.Proofs.Stub.Overload
import StubGen.Proofs.Stub.Reports

/-!
# Files statement by statement

A file whose statements define no types on the way, and declare no name twice, is put together from the files of its
statements.

* `Part.IsSection`: the code of a declaration begins and ends with lines that are not blank, after two that are.
* `fileParts_eq_of_no_blocks`: statements that define no types run as if each stood alone.
* `generate_statementwise` is about the text of the file, its imports and its reports.
-/

namespace StubGen.DeclFile

/-! ### Scopes -/

/-- The declaration has no code at all, or code whose last line is not blank. -/
def Entry.Closes (entry : Entry) : Prop := entry = .plain [] ∨ Code.Closes entry.code

namespace Entry

theorem closes_decorate (dispatch : String) {entries : List Entry} (h : ∀ entry ∈ entries, entry.Closes) :
    decorate dispatch entries = [] ∨ Code.Closes (decorate dispatch entries) := by
  have hfrom : ∀ all before, decorateFrom dispatch all before entries = [] ∨
      Code.Closes (decorateFrom dispatch all before entries) := by
    intro all before
    induction entries generalizing before with
    | nil => exact Or.inl rfl
    | cons entry rest ih =>
      obtain ⟨hentry, hrest⟩ := List.forall_mem_cons.mp h
      rw [decorateFrom]
      rcases ih hrest (before ++ [entry]) with hnone | hcloses
      · rw [hnone, List.append_nil]
        rcases hentry with rfl | hentry
        · exact Or.inl rfl
        · exact Or.inr (hentry.append _)
      · exact Or.inr (hcloses.append _)
  exact hfrom entries []

/-- Without overloads there are no decorators. -/
theorem decorate_eq_flatMap (dispatch : String) {entries : List Entry} (h : hasOverloads entries = false) :
    decorate dispatch entries = entries.flatMap fun entry => entry.ahead ++ entry.code := by
  have hcount : ∀ name, countOf name entries ≤ 1 := by
    intro name
    by_contra hmany
    have hoverloads := (hasOverloads_iff entries).mpr ⟨name, Nat.lt_of_not_le hmany⟩
    rw [h] at hoverloads
    cases hoverloads
  have hfrom : ∀ before rest, decorateFrom dispatch entries before rest =
      rest.flatMap fun entry => entry.ahead ++ entry.code := by
    intro before rest
    induction rest generalizing before with
    | nil => rfl
    | cons entry rest ih =>
      have hnone : entry.name.elim [] (decorator dispatch entries before) = [] := by
        cases entry.name with
        | none => rfl
        | some name => exact if_pos (hcount name)
      rw [decorateFrom, hnone, ih, List.flatMap_cons, List.append_nil]
  exact hfrom [] entries

/-- Names that are all different are no overloads. -/
theorem hasOverloads_eq_false {entries : List Entry} (h : (names entries).Nodup) : hasOverloads entries = false := by
  rw [Bool.eq_false_iff]
  intro hoverloads
  obtain ⟨name, hname⟩ := (hasOverloads_iff entries).mp hoverloads
  have hcount : countOf name entries = (names entries).count name := by
    rw [names, List.count_filterMap, countOf]
    exact List.countP_congr fun entry _ => by simp
  have hone := List.nodup_iff_count_le_one.mp h name
  omega

end Entry

/-! ### Declarations -/

section Declarations

variable {style : Style}

private theorem closes_propertyCode (recased : Recased) (readonly static : Bool) (type : String) :
    (propertyCode style recased readonly static type).Ensures (fun _ => True) Code.Closes := by
  have hraise : Code.Closes [.line "raise NotImplementedError"] := .line (by decide)
  have hgetter : (getterCode style recased type).Ensures (fun _ => True) Code.Closes :=
    (Stubs.Ensures.trivial _).map fun aliases _ =>
      (Code.Closes.suite (by simp +decide [isBlankLine_append]) (Or.inr hraise)).append (.line "@property" :: aliases)
  have hsetter : (setterCode style recased type).Ensures (fun _ => True) Code.Closes :=
    (Stubs.Ensures.trivial _).map fun aliases _ =>
      (Code.Closes.line (by simp +decide [isBlankLine_append])).append
        (.blank 1 :: .line ("@" ++ recased.name ++ ".setter") :: aliases)
  unfold propertyCode
  split
  · exact (Stubs.Ensures.trivial _).map fun _ _ => .line (by simp +decide [isBlankLine_append])
  · split
    · exact hgetter
    · exact hgetter.bind fun getter _ => hsetter.map fun setter h => h.append getter

private theorem closes_reportName (kind text : String) :
    (reportName kind text).Ensures (fun _ => True) Code.Closes :=
  (Stubs.Ensures.trivial _).map fun _ _ => .line (by simp +decide [isBlankLine_append])

private theorem closes_memberEntry (separate : Bool) (member : Member) :
    (memberEntry style separate member).Ensures (fun _ => True) Entry.Closes := by
  cases member with
  | property name type optional readonly static =>
    cases name with
    | other kind text => exact (closes_reportName kind text).map fun _ h => Or.inr h
    | ident name =>
      exact (Stubs.Ensures.trivial _).bind fun _ _ => (Stubs.Ensures.trivial _).bind fun type _ =>
        (closes_propertyCode (.snake name) readonly static type).map fun _ h => Or.inr h
  | method name params result =>
    cases name with
    | other kind text => exact (closes_reportName kind text).map fun _ h => Or.inr h
    | ident name =>
      exact (Stubs.Ensures.trivial _).bind fun aliases _ => (Stubs.Ensures.trivial _).bind fun _ _ =>
        (Stubs.Ensures.trivial _).map fun _ _ =>
          Or.inr ((Code.Closes.line (by simp +decide [stubText, isBlankLine_append])).append aliases)
  | constructor params =>
    exact (Stubs.Ensures.trivial _).map fun _ _ => Or.inr (.line (by simp +decide [isBlankLine_append]))
  | unsupported kind => exact (Stubs.Ensures.trivial _).map fun _ _ => Or.inl rfl

private theorem closes_memberEntries (separate : Bool) (members : List Member) :
    (memberEntries style separate members).Ensures (fun _ => True) fun entries => ∀ entry ∈ entries, entry.Closes := by
  induction members generalizing separate with
  | nil => exact .pure (by simp)
  | cons member rest ih =>
    exact (closes_memberEntry separate member).bind fun entry hentry => (ih _).map fun entries hentries =>
      List.forall_mem_cons.mpr ⟨hentry, hentries⟩

private theorem closes_classHeader (name : String) (bases : List String) (isInterface : Bool) :
    (classHeader name bases isInterface).Ensures (fun _ => True) fun header => isBlankLine header = false := by
  unfold classHeader
  split
  · exact .pure (by simp +decide [isBlankLine_append])
  · split
    · exact (Stubs.Ensures.trivial _).map fun _ _ => by simp +decide [isBlankLine_append]
    · exact .pure (by simp +decide [isBlankLine_append])

/-- The lines of a part, without the two blank ones ahead. -/
def Part.ownLines (part : Part) : List String := (Code.lines (part.toEntry.ahead ++ part.toEntry.code)).drop 2

/-- The code of the part is a section after two blank lines. -/
structure Part.IsSpaced (part : Part) : Prop where
  lines : Code.lines (part.toEntry.ahead ++ part.toEntry.code) = ["", ""] ++ part.ownLines
  own : IsSection part.ownLines

theorem Part.IsSpaced.of_code (part : Part) {codes : List Code}
    (hcode : part.toEntry.ahead ++ part.toEntry.code = .blank 2 :: codes) (hcodes : IsSection (Code.lines codes)) :
    part.IsSpaced := by
  have hlines : Code.lines (part.toEntry.ahead ++ part.toEntry.code) = ["", ""] ++ Code.lines codes := by
    rw [hcode, Code.lines_eq, Code.lines_eq]
    rfl
  have hown : part.ownLines = Code.lines codes := by
    rw [Part.ownLines, hlines]
    rfl
  exact ⟨by rw [hown, hlines], by rwa [hown]⟩

private theorem isSpaced_plain {codes : List Code} (h : IsSection (Code.lines codes)) :
    (Part.entry (.plain (.blank 2 :: codes))).IsSpaced := .of_code _ rfl h

private theorem spaced_writeClass (isInterface : Bool) (decl : ClassDecl) :
    (writeClass style isInterface decl).Ensures (fun _ => True) fun parts => ∀ part ∈ parts, part.IsSpaced := by
  obtain ⟨name, heritage, members⟩ := decl
  cases name with
  | other kind text => exact (Stubs.Ensures.trivial _).map fun _ _ => by simp
  | ident name =>
    -- all but the header and the members may be as it likes
    have hcode : ∀ bases isEmpty, (classCode style (.pascal name) bases isInterface (memberEntries style false members)
        isEmpty).Ensures (fun _ => True) fun decl =>
          isBlankLine decl.header = false ∧ ∀ entry ∈ decl.members, entry.Closes := fun bases isEmpty =>
      (Stubs.Ensures.trivial _).bind fun _ _ => (Stubs.Ensures.trivial _).bind fun _ _ =>
        (Stubs.Ensures.trivial _).bind fun texts _ => (closes_classHeader _ texts isInterface).bind fun _ hheader =>
          (closes_memberEntries false members).bind fun entries hentries => (Stubs.Ensures.trivial _).map fun _ _ => by
            refine ⟨hheader, List.forall_mem_append.mpr ⟨hentries, ?_⟩⟩
            cases isEmpty with
            | false => simp
            | true => exact List.forall_mem_singleton.mpr (Or.inr (.line (by decide)))
    refine (hcode _ _).map fun decl hdecl => List.forall_mem_singleton.mpr ?_
    have hsuite := Code.Closes.suite hdecl.1 (Entry.closes_decorate "singledispatchmethod" hdecl.2)
    have hcloses := hsuite.append (.line "@external" :: decl.aliases)
    exact .of_code (.scope decl) rfl (hcloses.isSection_line (by decide))

private theorem spaced_writeFunction (name : Name) (params : List Param) (result : Option TypeExpr) :
    (writeFunction style name params result).Ensures (fun _ => True) fun parts => ∀ part ∈ parts, part.IsSpaced := by
  cases name with
  | other kind text => exact (Stubs.Ensures.trivial _).map fun _ _ => by simp
  | ident name =>
    have haliases : (aliasLines style (.snake name)).Ensures (fun _ => True) fun aliases =>
        ∀ text, isBlankLine text = false → IsSection (Code.lines (aliases ++ [.line text])) := by
      unfold aliasLines
      split
      · rename_i declared _
        refine (Stubs.Ensures.trivial _).map fun _ _ text htext => ?_
        have hcloses := (Code.Closes.line htext).append [.line ("@" ++ aliasText declared)]
        exact hcloses.isSection_line (by simp +decide [isBlankLine_append])
      · exact .pure fun text htext => (Code.Closes.line htext).isSection_line htext
    exact haliases.bind fun aliases haliases => (Stubs.Ensures.trivial _).bind fun _ _ =>
      (Stubs.Ensures.trivial _).map fun _ _ => List.forall_mem_singleton.mpr
        (.of_code _ rfl (haliases _ (by simp +decide [stubText, isBlankLine_append])))

private theorem spaced_writeEnum (name : Name) (members : List EnumMember) :
    (writeEnum name members).Ensures (fun _ => True) fun parts => ∀ part ∈ parts, part.IsSpaced := by
  cases name with
  | other kind text => exact (Stubs.Ensures.trivial _).map fun _ _ => by simp
  | ident name =>
    have hmember : ∀ member, (enumeratorCode member).Ensures (fun _ => True) Code.Closes := by
      rintro ⟨_ | _, value⟩
      · exact (Stubs.Ensures.trivial _).map fun _ _ => .line (by simp +decide [isBlankLine_append])
      · exact closes_reportName _ _
    refine (Stubs.Ensures.trivial _).bind fun _ _ =>
      (Stubs.Ensures.forall_mapM fun member _ => hmember member).map fun codes hcodes =>
        List.forall_mem_singleton.mpr ?_
    have hbody : codes.flatten ++ (if members.any (·.name.ident?.isSome) then [] else [.line "..."]) = [] ∨
        Code.Closes (codes.flatten ++ if members.any (·.name.ident?.isSome) then [] else [.line "..."]) := by
      split
      · rw [List.append_nil]
        exact Code.Closes.flatten hcodes
      · exact Or.inr (.append (.line (by decide)) _)
    have hheader : isBlankLine ("class " ++ (Recased.pascal name).name ++ "(Enum):") = false := by
      simp +decide [isBlankLine_append]
    exact isSpaced_plain ((Code.Closes.suite hheader hbody).isSection_suite hheader)

private theorem spaced_writeVariable (declared : Variable) :
    (writeVariable style declared).Ensures (fun _ => True) fun parts => ∀ part ∈ parts, part.IsSpaced := by
  obtain ⟨name, type⟩ := declared
  cases name with
  | other kind text => exact (Stubs.Ensures.trivial _).map fun _ _ => by simp
  | ident name =>
    refine (Stubs.Ensures.trivial _).bind fun _ _ => (Stubs.Ensures.trivial _).map fun type _ =>
      List.forall_mem_singleton.mpr ?_
    have hshown : isBlankLine ((Recased.snake name).name ++ ": " ++ type) = false := by
      simp +decide [isBlankLine_append]
    exact isSpaced_plain ((Code.Closes.line hshown).isSection_line hshown)

/-- The code of each part of a statement is a section after two blank lines. -/
theorem spaced_statementParts (style : Style) (statement : Statement) :
    (statementParts style statement).Ensures (fun _ => True) fun parts => ∀ part ∈ parts, part.IsSpaced := by
  cases statement with
  | classDecl decl => exact spaced_writeClass false decl
  | interface decl => exact spaced_writeClass true decl
  | function name params result => exact spaced_writeFunction name params result
  | typeAlias name type =>
    cases name with
    | other => exact (Stubs.Ensures.trivial _).map fun _ _ => by simp
    | ident name =>
      refine (Stubs.Ensures.trivial _).map fun text _ => List.forall_mem_singleton.mpr ?_
      have hshown : isBlankLine ((Recased.pascal name).name ++ " = " ++ text) = false := by
        simp +decide [isBlankLine_append]
      exact isSpaced_plain ((Code.Closes.line hshown).isSection_line hshown)
  | enum name members => exact spaced_writeEnum name members
  | variableDecls declared =>
    refine (Stubs.Ensures.forall_mapM fun item _ => spaced_writeVariable item).map fun results hresults part hpart => ?_
    obtain ⟨parts, hparts, hpart⟩ := List.mem_flatten.mp hpart
    exact hresults parts hparts part hpart
  | module => exact .pure (by simp)
  | unsupported kind => exact (Stubs.Ensures.trivial _).map fun _ _ => by simp

end Declarations

/-! ### Files -/

section Files

variable {style : Style} {statements : List Statement}

/-- The lines of a body without overloads are the sections of its parts. -/
theorem trimBlankLines_bodyCode {parts : List Part} (hoverloads : Entry.hasOverloads (parts.map Part.toEntry) = false)
    (hparts : ∀ part ∈ parts, part.IsSpaced) :
    trimBlankLines (Code.lines (bodyCode parts)) = ["", ""].intercalate (parts.map Part.ownLines) := by
  have hlines : Code.lines (bodyCode parts) = (parts.map Part.ownLines).flatMap (["", ""] ++ ·) := by
    rw [bodyCode, Entry.decorate_eq_flatMap "singledispatch" hoverloads, Code.lines_eq]
    clear hoverloads
    induction parts with
    | nil => rfl
    | cons part rest ih =>
      obtain ⟨hpart, hrest⟩ := List.forall_mem_cons.mp hparts
      have hown := hpart.lines
      rw [Code.lines_eq] at hown
      rw [List.map_cons, List.flatMap_cons, Code.allLinesAt_append, hown, ih hrest, List.map_cons, List.flatMap_cons]
  rw [hlines]
  refine trimBlankLines_flatMap (by decide) fun lines hmem => ?_
  obtain ⟨part, hpart, rfl⟩ := List.mem_map.mp hmem
  exact (hparts part hpart).own

/-- Pieces that define no types run one after the other as if each stood alone. -/
theorem Stubs.mapM_eq_of_no_blocks {α β : Type} {f : α → Stubs β} {items : List α}
    (h : ∀ item ∈ items, (f item 0).1.blocks = []) : items.mapM f 0 =
      (⟨items.flatMap fun item => (f item 0).1.uses, [], items.flatMap fun item => (f item 0).1.diagnostics⟩,
        items.map fun item => (f item 0).2) := by
  induction items with
  | nil => rfl
  | cons item rest ih =>
    obtain ⟨hitem, hrest⟩ := List.forall_mem_cons.mp h
    have hcount : 0 + (f item 0).1.blocks.length = 0 := by rw [hitem, List.length_nil]
    rw [List.mapM_cons, bind_apply, hcount, bind_apply, ih hrest, pure_apply, Log.append_empty]
    refine Prod.ext ?_ rfl
    show Log.append _ _ = _
    rw [Log.append, hitem]
    rfl

private theorem uses_useDispatch {entries : List Entry} (h : Entry.hasOverloads entries = false) (dispatch : String)
    (count : Nat) : (useDispatch dispatch entries count).1 = .empty := by
  rw [useDispatch, if_neg (by simp [h])]
  rfl

/-- Statements that define no types and share no name run as if each stood alone. -/
theorem fileParts_eq_of_no_blocks (hnames : (statements.filterMap Statement.declared?).Nodup)
    (h : ∀ statement ∈ statements, (statementParts style statement 0).1.blocks = []) : fileParts style statements 0 =
      (⟨statements.flatMap fun statement => (statementParts style statement 0).1.uses, [],
          statements.flatMap fun statement => (statementParts style statement 0).1.diagnostics⟩,
        statements.flatMap fun statement => (statementParts style statement 0).2) ∧
      Entry.hasOverloads ((fileParts style statements 0).2.map Part.toEntry) = false := by
  have hdeclared := (declares_fileParts style statements 0).names
  have hoverloads : Entry.hasOverloads ((fileParts style statements 0).2.map Part.toEntry) = false := by
    refine Entry.hasOverloads_eq_false ?_
    rwa [Entry.names, List.filterMap_map, Function.comp_def, hdeclared]
  refine ⟨?_, hoverloads⟩
  have hfile : fileParts style statements 0 =
      ((statements.mapM (statementParts style) 0).1 ++ ((useDispatch "singledispatch"
        ((fileParts style statements 0).2.map Part.toEntry) _).1 ++ .empty),
        (statements.mapM (statementParts style) 0).2.flatten) := rfl
  rw [hfile, uses_useDispatch hoverloads, Log.append_empty, Log.append_empty, Stubs.mapM_eq_of_no_blocks h]
  rfl

/-- A statement that stands alone defines the types of its parts. -/
private theorem blocks_fileParts_singleton (style : Style) (statement : Statement) :
    (fileParts style [statement] 0).1.blocks = (statementParts style statement 0).1.blocks := by
  have hdispatch : ∀ entries count, (useDispatch "singledispatch" entries count).1.blocks = [] := by
    intro entries count
    rw [useDispatch]
    split <;> rfl
  rw [fileParts, Stubs.bind_apply, Stubs.bind_apply, List.mapM_cons, List.mapM_nil, Stubs.bind_apply, pure_bind]
  simp only [Log.blocks_append, hdispatch, Stubs.pure_apply, Log.empty, List.append_nil]

end Files

/-- The types that a file defines on the way. -/
def fileTypes (options : DeclOptions) (statements : List Statement) : List Block :=
  (fileParts (.ofOptions options) statements 0).1.blocks

/-- The import table of a file's module. -/
def fileImports (options : DeclOptions) (statements : List Statement) : Imports :=
  .ofUses (fileParts (.ofOptions options) statements 0).1.uses

/-- The body of a file's module. -/
def fileBody (options : DeclOptions) (statements : List Statement) : List String :=
  trimBlankLines (Code.lines (bodyCode (fileParts (.ofOptions options) statements 0).2))

/-- The text of a module has the header, the imports, the types and the body in it. -/
theorem text_generate (options : DeclOptions) (statements : List Statement) :
    (generate options statements).text = (Document.mk options.header (fileImports options statements)
      ((fileTypes options statements).map (fun block => Code.lines block.decl.code) ++
        [fileBody options statements])).render := by
  have hgenerate : (generate options statements).text = (Document.mk options.header (fileImports options statements)
      ((fileTypes options statements).map (fun block => Code.lines block.decl.code) ++
        [Code.lines (bodyCode (fileParts (.ofOptions options) statements 0).2)])).render :=
    congrArg Generated.text (generate_eq options statements)
  rw [hgenerate, fileBody, Document.render, Document.render, Document.sections, Document.sections]
  simp only [List.map_append, List.map_singleton, trimBlankLines_idem]

section Bodies

variable {options : DeclOptions} {statements : List Statement}

private theorem fileBody_eq (hnames : (statements.filterMap Statement.declared?).Nodup)
    (h : ∀ statement ∈ statements, (statementParts (.ofOptions options) statement 0).1.blocks = []) :
    fileBody options statements = ["", ""].intercalate (statements.flatMap fun statement =>
      (statementParts (.ofOptions options) statement 0).2.map Part.ownLines) := by
  obtain ⟨hfile, hoverloads⟩ := fileParts_eq_of_no_blocks hnames h
  rw [fileBody, trimBlankLines_bodyCode hoverloads, hfile, List.map_flatMap]
  rw [hfile]
  intro part hpart
  obtain ⟨statement, -, hpart⟩ := List.mem_flatMap.mp hpart
  exact (spaced_statementParts (.ofOptions options) statement 0).2 part hpart

private theorem fileImports_eq (hnames : (statements.filterMap Statement.declared?).Nodup)
    (h : ∀ statement ∈ statements, (statementParts (.ofOptions options) statement 0).1.blocks = []) :
    fileImports options statements =
      .ofUses (statements.flatMap fun statement => (statementParts (.ofOptions options) statement 0).1.uses) := by
  rw [fileImports, (fileParts_eq_of_no_blocks hnames h).1]

end Bodies

/-- A file is put together from its statements.  It reports what they report, each alone.  If none of them defines a
type on the way and no name is declared twice, then its body has their bodies in it, with two empty lines in between,
and its imports are theirs. -/
theorem generate_statementwise (options : DeclOptions) (statements : List Statement) :
    (∀ file, (generate options file).text = (Document.mk options.header (fileImports options file)
        ((fileTypes options file).map (fun block => Code.lines block.decl.code) ++ [fileBody options file])).render) ∧
      (generate options statements).diagnostics =
        statements.flatMap (fun statement => (generate options [statement]).diagnostics) ∧
      ((statements.filterMap Statement.declared?).Nodup →
        (∀ statement ∈ statements, fileTypes options [statement] = []) →
        fileTypes options statements = [] ∧
          fileBody options statements = ["", ""].intercalate
            ((statements.map fun statement => fileBody options [statement]).filter (· ≠ [])) ∧
          fileImports options statements =
            .union (statements.map fun statement => fileImports options [statement])) := by
  refine ⟨text_generate options, ?_, fun hnames htypes => ?_⟩
  · rw [diagnostics_generate]
    refine List.flatMap_congr fun statement _ => ?_
    rw [diagnostics_generate, List.flatMap_singleton]
  · have hblocks : ∀ statement ∈ statements, (statementParts (.ofOptions options) statement 0).1.blocks = [] :=
      fun statement hmem => (blocks_fileParts_singleton _ statement).symm.trans (htypes statement hmem)
    -- each statement alone is a file of the same kind
    have halone : ∀ statement ∈ statements, ([statement].filterMap Statement.declared?).Nodup ∧
        ∀ other ∈ [statement], (statementParts (.ofOptions options) other 0).1.blocks = [] := by
      intro statement hmem
      refine ⟨?_, List.forall_mem_singleton.mpr (hblocks statement hmem)⟩
      exact hnames.sublist ((List.singleton_sublist.mpr hmem).filterMap _)
    refine ⟨?_, ?_, ?_⟩
    · rw [fileTypes, (fileParts_eq_of_no_blocks hnames hblocks).1]
    · have hbodies : statements.map (fun statement => fileBody options [statement]) = (statements.map fun statement =>
          (statementParts (.ofOptions options) statement 0).2.map Part.ownLines).map ["", ""].intercalate := by
        rw [List.map_map]
        refine List.map_congr_left fun statement hmem => ?_
        obtain ⟨hnodup, hnone⟩ := halone statement hmem
        rw [fileBody_eq hnodup hnone, List.flatMap_singleton, Function.comp_apply]
      rw [fileBody_eq hnames hblocks, hbodies, List.flatMap, intercalate_flatten]
      intro sections hsections lines hlines
      obtain ⟨statement, -, rfl⟩ := List.mem_map.mp hsections
      obtain ⟨part, hpart, rfl⟩ := List.mem_map.mp hlines
      exact ((spaced_statementParts (.ofOptions options) statement 0).2 part hpart).own.ne_nil
    · have himports : statements.map (fun statement => fileImports options [statement]) =
          (statements.map fun statement => (statementParts (.ofOptions options) statement 0).1.uses).map .ofUses := by
        rw [List.map_map]
        refine List.map_congr_left fun statement hmem => ?_
        obtain ⟨hnodup, hnone⟩ := halone statement hmem
        rw [fileImports_eq hnodup hnone, List.flatMap_singleton, Function.comp_apply]
      rw [fileImports_eq hnames hblocks, himports, List.flatMap, Imports.ofUses_flatten]

/-- A function, a namespace, and a variable statement with a type that has no form in the output. -/
def counterFile : List Statement := [
  .function (.ident "run") [] none, .module,
  .variableDecls [⟨.ident "count", some (.keyword .number)⟩, ⟨.ident "rest", some (.unsupported "MappedType")⟩]]

theorem generate_statementwise_counterFile :
    (counterFile.filterMap Statement.declared?).Nodup ∧
      (∀ statement ∈ counterFile, fileTypes {} [statement] = []) ∧
      fileBody {} counterFile = ["", ""].intercalate
        ((counterFile.map fun statement => fileBody {} [statement]).filter (· ≠ [])) ∧
      fileImports {} counterFile = .union (counterFile.map fun statement => fileImports {} [statement]) := by
  have hnames : (counterFile.filterMap Statement.declared?).Nodup := by decide
  have htypes : ∀ statement ∈ counterFile, fileTypes {} [statement] = [] := by
    simp only [counterFile, List.forall_mem_cons]
    exact ⟨rfl, rfl, rfl, List.forall_mem_nil _⟩
  exact ⟨hnames, htypes, ((generate_statementwise {} counterFile).2.2 hnames htypes).2⟩

end StubGen.DeclFile
