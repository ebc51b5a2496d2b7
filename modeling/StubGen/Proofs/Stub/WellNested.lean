import StubGen.Proofs.Stub.Nesting

/-!
# The text of a stub module is well-nested

Over the tokens of TypeScript the text of a stub module is well-nested, whatever its statements are
(`generate_wellNested`): each decorator stands directly above another one or a definition, each class and each getter
has a statement in its suite, and no other line is followed by a deeper one.

* `Style.IsUnbroken.nests_statementParts` and `Style.IsUnbroken.nests_fileParts` are about the body of a module.
* `nests_imports` is about its import lines.
-/

namespace StubGen.DeclFile

/-! ### Statements -/

section Statements

variable {style : Style} {Defines : Block → Prop}

/-- The parts are declarations that are well-nested. -/
def PartsNest (parts : List Part) : Prop := ∀ part ∈ parts, part.toEntry.Nests

private theorem partsNest_plain {code : List Code} (h : Code.Nests code) : PartsNest [.entry (.plain code)] := by
  intro part hpart
  rw [List.mem_singleton.mp hpart]
  exact Entry.nests_plain h

private theorem partsNest_flatten {results : List (List Part)} (h : ∀ parts ∈ results, PartsNest parts) :
    PartsNest results.flatten := by
  intro part hpart
  obtain ⟨parts, hparts, hmem⟩ := List.mem_flatten.mp hpart
  exact h parts hparts part hmem

/-- The code of a constant in an enumeration is well-nested, and a statement if it has a name. -/
private theorem nests_enumeratorCode {member : EnumMember} (h : member.IsLexical) :
    (enumeratorCode member).Ensures Defines fun code =>
      Code.Nests code ∧ (member.name.ident?.isSome = true → Code.States code) := by
  obtain ⟨name, value⟩ := member
  cases name with
  | other kind text =>
    exact (ensures_reportName h.1.1 h.1.2).mono fun code hcode => ⟨hcode, fun hname => by cases hname⟩
  | ident name =>
    have hname : IsNameText name := h.1
    have hvalue : (enumeratorValue value).Ensures Defines Unbroken := by
      unfold enumeratorValue
      split
      · rename_i text
        have htext : Unbroken text := h.2 _ rfl
        exact .pure (by simp +decide [unbroken_append, htext])
      · exact .pure (h.2 _ rfl)
      · exact (Stubs.Ensures.use _).bind fun _ _ => .pure (by decide)
    refine hvalue.map fun text htext => ?_
    have hsign : Binds (escapeName name) " = " := Or.inr ⟨rfl, escapeName_ne_empty hname.1⟩
    obtain ⟨hnests, hstates⟩ := nests_binding (isEmitted_escapeName hname) hsign htext
    exact ⟨hnests, fun _ => hstates⟩

/-- The lines of an enumeration are well-nested, and there is a statement among them if one constant has a name. -/
private theorem nests_enumerators {members : List EnumMember} {results : List (List Code)}
    (h : List.Forall₂ (fun member code => Code.Nests code ∧ (member.name.ident?.isSome = true → Code.States code))
      members results) :
    Code.Nests results.flatten ∧ (members.any (·.name.ident?.isSome) = true → Code.States results.flatten) := by
  induction h with
  | nil => exact ⟨.nil, fun hsome => by cases hsome⟩
  | @cons member code _ others hcode _ ih =>
    obtain ⟨hnests, hstates⟩ := hcode
    obtain ⟨hrest, hrestStates⟩ := ih
    refine ⟨hnests.append hrest, fun hsome => ?_⟩
    rw [List.any_cons, Bool.or_eq_true] at hsome
    rcases hsome with hsome | hsome
    · exact (hstates hsome).append_left _
    · exact (hrestStates hsome).append_right _

private theorem nests_writeEnum {name : Name} (hname : name.IsLexical) {members : List EnumMember}
    (h : ∀ member ∈ members, member.IsLexical) : (writeEnum name members).Ensures Defines PartsNest := by
  cases name with
  | other kind text => exact (Stubs.Ensures.report _ _).bind fun _ _ => .pure fun part hpart => by cases hpart
  | ident name =>
    refine (Stubs.Ensures.use _).bind fun _ _ =>
      (Stubs.Ensures.mapM fun member hmember => nests_enumeratorCode (h member hmember)).map fun results hresults => ?_
    obtain ⟨hnests, hstates⟩ := nests_enumerators hresults
    have hdots : IsLineText "..." := ⟨by decide, by decide, by decide⟩
    have hword : "class " ∈ ["class ", "def "] := by decide
    have hheader : Unbroken ((Recased.pascal name).name ++ "(Enum)") :=
      (isEmitted_pascal hname).unbroken.append (by decide)
    have hbody : Code.Nests (results.flatten ++ if members.any (·.name.ident?.isSome) then [] else [.line "..."]) ∧
        Code.States (results.flatten ++ if members.any (·.name.ident?.isSome) then [] else [.line "..."]) := by
      split
      · next hsome => simpa using ⟨hnests, hstates hsome⟩
      · have hline : Code.Nests [.line "..."] := .plain hdots (by decide) (by decide)
        exact ⟨hnests.append hline, (Code.States.line hdots (by decide)).append_right _⟩
    have hclass := opens_suite hword hheader hbody.1 hbody.2
    have hending : "(Enum)" ++ ":" = "(Enum):" := rfl
    simp only [String.append_assoc, hending] at hclass ⊢
    exact partsNest_plain ((Code.Nests.blank 2).append hclass.toNests)

end Statements

namespace Style.IsUnbroken

variable {style : Style}

private theorem nests_writeClass (hstyle : style.IsUnbroken) (isInterface : Bool) {decl : ClassDecl}
    (h : decl.IsLexical) : (writeClass style isInterface decl).Ensures Block.Nests PartsNest := by
  obtain ⟨name, heritage, members⟩ := decl
  obtain ⟨hname, hheritage, hmembers⟩ := h
  cases name with
  | other kind text => exact (Stubs.Ensures.report _ _).bind fun _ _ => .pure fun part hpart => by cases hpart
  | ident name =>
    have hbases : (heritage.flatten.mapM fun (base : Base) => (do
        return referenceName base.name ++ argumentsText (← typeTexts style base.arguments) : Stubs String)).Ensures
          Block.Nests fun texts => ∀ text ∈ texts, Unbroken text := by
      refine Stubs.Ensures.forall_mapM fun base hbase => ?_
      obtain ⟨hhead, harguments⟩ := hheritage base hbase
      exact (hstyle.ensures_typeTexts base.arguments harguments).map fun texts htexts =>
        (unbroken_referenceName hhead).append (unbroken_argumentsText htexts)
    refine (nests_classCode (areUnbroken_pascal hname) hbases isInterface
      (hstyle.ensures_memberEntries false members hmembers)).map fun decl hdecl part hpart => ?_
    rw [List.mem_singleton.mp hpart]
    exact Entry.nests_plain hdecl

private theorem nests_writeFunction (hstyle : style.IsUnbroken) {name : Name} (hname : name.IsLexical)
    {params : List Param} (hparams : Param.AllLexical params) {result : Option TypeExpr}
    (hresult : TypeExpr.OptionLexical result) :
    (writeFunction style name params result).Ensures Block.Nests PartsNest := by
  cases name with
  | other kind text => exact (Stubs.Ensures.report _ _).bind fun _ _ => .pure fun part hpart => by cases hpart
  | ident name =>
    refine (ensures_decorators (areUnbroken_snake hname)).bind fun aliases haliases =>
      (hstyle.ensures_paramTexts 0 params hparams).bind fun texts htexts =>
        (hstyle.ensures_resultText result hresult).map fun result hresult part hpart => ?_
    have hemitted := (isEmitted_snake hname).unbroken
    have hopens := haliases _ (opens_stubLine hemitted htexts hresult).1
    rw [List.mem_singleton.mp hpart]
    exact ⟨.blank 2, hopens.toNests, fun _ hsome => by cases hsome; exact ⟨hemitted, hopens⟩⟩

private theorem nests_writeTypeAlias (hstyle : style.IsUnbroken) {name : Name} (hname : name.IsLexical)
    {type : TypeExpr} (htype : type.IsLexical) : (writeTypeAlias style name type).Ensures Block.Nests PartsNest := by
  cases name with
  | other kind text => exact (Stubs.Ensures.report _ _).bind fun _ _ => .pure fun part hpart => by cases hpart
  | ident name =>
    refine (hstyle.ensures_typeText type htype).map fun text htext => ?_
    have hne : IsNameText name := hname
    have hline := nests_binding (isEmitted_pascal hname) (Or.inr ⟨rfl, Recased.pascal_ne_empty hne.1⟩) htext
    exact partsNest_plain ((Code.Nests.blank 2).append hline.1)

private theorem nests_writeVariable (hstyle : style.IsUnbroken) {declared : Variable} (h : declared.IsLexical) :
    (writeVariable style declared).Ensures Block.Nests PartsNest := by
  obtain ⟨name, type⟩ := declared
  obtain ⟨hname, htype⟩ := h
  cases name with
  | other kind text => exact (Stubs.Ensures.report _ _).bind fun _ _ => .pure fun part hpart => by cases hpart
  | ident name =>
    refine (hstyle.ensures_optionalTypeText type htype).bind fun text htext =>
      (ensures_annotated (areUnbroken_snake hname) htext).map fun text htext => ?_
    have hline := nests_binding (isEmitted_snake hname) (Or.inl rfl) htext
    exact partsNest_plain ((Code.Nests.blank 2).append hline.1)

/-- The parts of a statement are well-nested. -/
theorem nests_statementParts (hstyle : style.IsUnbroken) (statement : Statement) (h : statement.IsLexical) :
    (statementParts style statement).Ensures Block.Nests PartsNest := by
  have hnone : PartsNest [] := fun part hpart => by cases hpart
  cases statement with
  | classDecl decl => exact hstyle.nests_writeClass false h
  | interface decl => exact hstyle.nests_writeClass true h
  | function name params result => exact hstyle.nests_writeFunction h.1 h.2.1 h.2.2
  | typeAlias name type => exact hstyle.nests_writeTypeAlias h.1 h.2
  | enum name members => exact nests_writeEnum h.1 h.2
  | variableDecls declared =>
    exact (Stubs.Ensures.forall_mapM fun item hitem => hstyle.nests_writeVariable (h item hitem)).map
      fun results hresults => partsNest_flatten hresults
  | module => exact .pure hnone
  | unsupported kind => exact (Stubs.Ensures.report _ _).bind fun _ _ => .pure hnone

/-- The parts of a file are well-nested. -/
theorem nests_fileParts (hstyle : style.IsUnbroken) (statements : List Statement)
    (h : ∀ statement ∈ statements, statement.IsLexical) :
    (fileParts style statements).Ensures Block.Nests PartsNest := by
  exact (Stubs.Ensures.forall_mapM fun statement hmem => hstyle.nests_statementParts statement (h statement hmem)).bind
    fun results hresults => (Stubs.Ensures.useDispatch _ _).bind fun _ _ => .pure (partsNest_flatten hresults)

end Style.IsUnbroken

/-! ### Files -/

section Files

/-- An import line is well-nested by itself. -/
private theorem nests_import {module : String} (hmodule : Unbroken module) {symbols : List String}
    (hsymbols : ∀ symbol ∈ symbols, Unbroken symbol) :
    Code.Nests [.line ("from " ++ module ++ " import " ++ ", ".intercalate symbols)] := by
  have hitems : Unbroken (", ".intercalate symbols) := .intercalate (by decide) hsymbols
  have hbetween : Unbroken " import " := by decide
  have hstart : IsLineText "from " := ⟨by decide, by decide, by decide⟩
  have hfrom := hstart.append hmodule
  have himport := hfrom.append hbetween
  have hline := himport.append hitems
  refine .plain hline ?_ ?_
  · rw [isDecorator, hline.bareText_eq, himport.head?_append, hfrom.head?_append, hstart.head?_append]
    decide
  · rw [isDefinition, hline.bareText_eq, String.toList_append, String.toList_append, String.toList_append]
    rfl

/-- The lines of code at the left margin. -/
private theorem printedAt_zero (codes : List Code) : Code.printedAt 0 codes = (Code.lines codes).map trimEnd := by
  rw [Code.printedAt, Code.lines_eq]

/-- Lines that are well-nested one by one. -/
private theorem nests_lines {lines : List String} (h : ∀ line ∈ lines, Code.Nests [.line line]) :
    Code.Nests (lines.map .line) ∧ Code.printedAt 0 (lines.map .line) = lines.map trimEnd := by
  induction lines with
  | nil => exact ⟨.nil, rfl⟩
  | cons line rest ih =>
    obtain ⟨hline, hrest⟩ := List.forall_mem_cons.mp h
    obtain ⟨hnests, hprinted⟩ := ih hrest
    have hfirst : Code.printedAt 0 [.line line] = [trimEnd line] := by
      simp [Code.printedAt, Code.allLinesAt, Code.linesAt, indented]
    refine ⟨hline.append hnests, ?_⟩
    rw [List.map_cons, ← List.singleton_append, Code.printedAt_append, hfirst, hprinted, List.map_cons,
      List.singleton_append]

/-- The import lines of symbols whose names have no line break in them. -/
private theorem nests_imports {uses : List Import}
    (h : ∀ symbol ∈ uses, Unbroken symbol.module ∧ Unbroken symbol.symbol) :
    ∀ line ∈ (Imports.ofUses uses).lines, Code.Nests [.line line] := by
  intro line hline
  obtain ⟨⟨module, symbols⟩, hmem, rfl⟩ := List.mem_map.mp hline
  have hused : ∀ symbol ∈ symbols, ⟨module, symbol⟩ ∈ uses := fun symbol hsymbol =>
    (Imports.provides_ofUses uses ⟨module, symbol⟩).mp ⟨symbols, hmem, hsymbol⟩
  obtain ⟨symbol, hsymbol⟩ := Imports.exists_symbol_of_mem_ofUses hmem
  exact nests_import (h _ (hused symbol hsymbol)).1 fun other hother => (h _ (hused other hother)).2

variable {options : DeclOptions} {statements : List Statement}

/-- The symbols that a file uses have no line break in their names. -/
private theorem unbroken_uses (hmodule : Unbroken options.runtimeModule) :
    ∀ symbol ∈ (fileParts (.ofOptions options) statements 0).1.uses,
      Unbroken symbol.module ∧ Unbroken symbol.symbol := by
  have hmodules : ∀ name ∈ ["typing", "enum", "functools"], Unbroken name := by decide
  have hnames : ∀ name ∈ typingSymbols ++
      ["Enum", "auto", "external", "alias", "singledispatchmethod", "singledispatch"], Unbroken name := by decide
  intro symbol hsymbol
  have honly := (dispatches_fileParts (.ofOptions options) statements 0).only symbol hsymbol
  rcases honly with hstyle | ⟨scope, hscope, -, rfl⟩
  · rcases List.mem_append.mp hstyle with hstyle | hstyle
    · rcases List.mem_append.mp hstyle with hstyle | hstyle
      · obtain ⟨name, hname, rfl⟩ := List.mem_map.mp hstyle
        exact ⟨hmodules _ (by simp), hnames name (List.mem_append_left _ hname)⟩
      · obtain ⟨name, hname, rfl⟩ := List.mem_map.mp hstyle
        refine ⟨hmodules _ (by simp), hnames name (List.mem_append_right _ ?_)⟩
        simp only [List.mem_cons, List.not_mem_nil, or_false] at hname ⊢
        tauto
    · obtain ⟨name, hname, rfl⟩ := List.mem_map.mp hstyle
      refine ⟨hmodule, hnames name (List.mem_append_right _ ?_)⟩
      simp only [List.mem_cons, List.not_mem_nil, or_false] at hname ⊢
      tauto
  · have hdispatch : scope.1 = "singledispatchmethod" ∨ scope.1 = "singledispatch" := by
      rcases List.mem_append.mp hscope with hscope | hscope
      · obtain ⟨block, -, rfl⟩ := List.mem_map.mp hscope
        exact Or.inl rfl
      · rcases List.mem_append.mp hscope with hscope | hscope
        · obtain ⟨decl, -, rfl⟩ := List.mem_map.mp hscope
          exact Or.inl rfl
        · rw [List.mem_singleton.mp hscope]
          exact Or.inr rfl
    refine ⟨hmodules _ (by simp), hnames scope.1 (List.mem_append_right _ ?_)⟩
    simp only [List.mem_cons, List.not_mem_nil, or_false]
    tauto

/-- The document of well-nested parts and blocks has a well-nested text. -/
private theorem wellNested_document (hheader : WellNested 0 (options.header.map trimEnd))
    (hbreaks : ∀ line ∈ options.header, Unbroken line) {log : Log} {parts : List Part}
    (huses : ∀ symbol ∈ log.uses, Unbroken symbol.module ∧ Unbroken symbol.symbol)
    (hblocks : ∀ block ∈ log.blocks, block.Nests) (hparts : PartsNest parts) :
    WellNested 0 (textLines (document options log parts).render) := by
  have hdispatch : Unbroken "singledispatch" := by decide
  have hbody : Code.Nests (bodyCode parts) := by
    refine Entry.nests_decorate hdispatch fun entry hentry => ?_
    obtain ⟨part, hpart, rfl⟩ := List.mem_map.mp hentry
    exact hparts part hpart
  obtain ⟨himports, himportLines⟩ := nests_lines (nests_imports huses)
  have hcodes : ∀ block ∈ (document options log parts).blocks,
      ∃ codes, Code.Nests codes ∧ block.map trimEnd = Code.printedAt 0 codes := by
    intro block hblock
    rcases List.mem_append.mp hblock with hblock | hblock
    · obtain ⟨defined, hdefined, rfl⟩ := List.mem_map.mp hblock
      exact ⟨_, hblocks defined hdefined, (printedAt_zero _).symm⟩
    · rw [List.mem_singleton.mp hblock]
      exact ⟨_, hbody, (printedAt_zero _).symm⟩
  refine WellNested.render hheader ?_ (fun block hblock => ?_) fun line hline => ?_
  · rw [document, ← himportLines]
    exact himports.nested 0
  · obtain ⟨codes, hnests, hprinted⟩ := hcodes block hblock
    rw [hprinted]
    exact hnests.nested 0
  · rcases List.mem_append.mp hline with hline | hline
    · rcases List.mem_append.mp hline with hline | hline
      · exact (hbreaks line hline).trimEnd
      · refine himports.unbroken 0 _ ?_
        rw [himportLines]
        exact List.mem_map_of_mem hline
    · obtain ⟨block, hblock, hmem⟩ := List.mem_flatten.mp hline
      obtain ⟨codes, hnests, hprinted⟩ := hcodes block hblock
      refine hnests.unbroken 0 _ ?_
      rw [← hprinted]
      exact List.mem_map_of_mem hmem

/-- The text of a stub module is well-nested, over the tokens of TypeScript.  The lines of the header have to be so by
themselves. -/
theorem generate_wellNested (options : DeclOptions) (statements : List Statement)
    (hheader : WellNested 0 (options.header.map trimEnd)) (hbreaks : ∀ line ∈ options.header, Unbroken line)
    (hmodule : Unbroken options.runtimeModule) (hstem : Unbroken options.typeStem)
    (h : ∀ statement ∈ statements, statement.IsLexical) :
    WellNested 0 (textLines (generate options statements).text) := by
  have hstyle : (Style.ofOptions options).IsUnbroken := fun number => hstem.append (.decimal number)
  obtain ⟨hblocks, hparts⟩ := hstyle.nests_fileParts statements h 0
  have htext :
      (generate options statements).text = (document options (fileParts (.ofOptions options) statements 0).1
        (fileParts (.ofOptions options) statements 0).2).render :=
    congrArg Generated.text (generate_eq options statements)
  rw [htext]
  exact wellNested_document hheader hbreaks (unbroken_uses hmodule) hblocks hparts

/-- An interface with nothing but a member that has no form in the output, and a class with two declarations of one
name, one of which has a type without a name in it. -/
def nestedFile : List Statement := [
  .interface ⟨.ident "Empty", [], [.property (.other "PrivateIdentifier" "#state") none false false false]⟩,
  .classDecl ⟨.ident "Api", [], [
    .method (.ident "openFile") [] (some (.members [.property (.ident "size") none false true false])),
    .method (.ident "openFile") [] none]⟩]

theorem generate_wellNested_nestedFile :
    WellNested 0 (["import sys"].map trimEnd) ∧ (∀ statement ∈ nestedFile, statement.IsLexical) ∧
      WellNested 0 (textLines (generate { header := ["import sys"] } nestedFile).text) := by
  have hheader : WellNested 0 (["import sys"].map trimEnd) := .plain (by decide) (by decide) (by decide) (by decide)
  have hstatements : ∀ statement ∈ nestedFile, statement.IsLexical := by
    simp +decide [nestedFile, Statement.IsLexical, ClassDecl.IsLexical, Member.AllLexical, Member.IsLexical,
      Name.IsLexical, TypeExpr.OptionLexical, TypeExpr.IsLexical, Param.AllLexical]
  exact ⟨hheader, hstatements,
    generate_wellNested { header := ["import sys"] } nestedFile hheader (by decide) (by decide) (by decide) hstatements⟩

end Files

end StubGen.DeclFile
