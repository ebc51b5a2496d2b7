import StubGen.Proofs.Stub.Lexical
import StubGen.Proofs.Stub.Overload

/-!
# Types and members are well-nested

What the generator writes for types and members is well-nested, and so is every type that it defines on the way.

* `Entry.nests_decorate` and `Entry.states_decorate` put the decorators of overloads into a scope.
* `nests_classCode` is about a class, whatever there is of its members.
* `Style.IsUnbroken.ensures_typeText` and `Style.IsUnbroken.ensures_memberEntries` follow the generator.
-/

namespace StubGen.DeclFile

/-- The decorators keep the code of a definition well-nested. -/
def Decorators (aliases : List Code) : Prop := ∀ codes, Code.Opens codes → Code.Opens (aliases ++ codes)

/-! ### Scopes -/

/-- The declaration is well-nested, and decorators can stand above one that has a name. -/
structure Entry.Nests (entry : Entry) : Prop where
  ahead : Code.Nests entry.ahead
  code : Code.Nests entry.code
  opens : ∀ name ∈ entry.name, Unbroken name ∧ Code.Opens entry.code

namespace Entry

variable {dispatch : String} {entries : List Entry}

theorem nests_plain {code : List Code} (h : Code.Nests code) : (Entry.plain code).Nests :=
  ⟨.nil, h, fun _ hname => by cases hname⟩

private theorem decorators_decorator (hdispatch : Unbroken dispatch) (all before : List Entry) {name : String}
    (hname : Unbroken name) : Decorators (decorator dispatch all before name) := by
  intro codes hcodes
  unfold decorator
  split
  · exact hcodes
  · split
    · exact opens_decorated hdispatch hcodes
    · have hregister : Unbroken ".register" := by decide
      rw [String.append_assoc]
      exact opens_decorated (hname.append hregister) hcodes

theorem nests_decorate (hdispatch : Unbroken dispatch) (h : ∀ entry ∈ entries, entry.Nests) :
    Code.Nests (decorate dispatch entries) := by
  have hfrom : ∀ all before, Code.Nests (decorateFrom dispatch all before entries) := by
    intro all before
    induction entries generalizing before with
    | nil => exact .nil
    | cons entry rest ih =>
      obtain ⟨hentry, hrest⟩ := List.forall_mem_cons.mp h
      have hcode : Code.Nests (entry.name.elim [] (decorator dispatch all before) ++ entry.code) := by
        cases hname : entry.name with
        | none => exact hentry.code
        | some name =>
          obtain ⟨hunbroken, hopens⟩ := hentry.opens name hname
          exact (decorators_decorator hdispatch all before hunbroken _ hopens).toNests
      rw [decorateFrom, List.append_assoc entry.ahead]
      exact (hentry.ahead.append hcode).append (ih hrest (before ++ [entry]))
  exact hfrom entries []

theorem states_decorate (h : ∃ entry ∈ entries, Code.States entry.code) : Code.States (decorate dispatch entries) := by
  have hfrom : ∀ all before, Code.States (decorateFrom dispatch all before entries) := by
    intro all before
    induction entries generalizing before with
    | nil =>
      obtain ⟨_, hmem, -⟩ := h
      cases hmem
    | cons entry rest ih =>
      obtain ⟨other, hmem, hstates⟩ := h
      rw [decorateFrom]
      rcases List.mem_cons.mp hmem with rfl | hmem
      · exact (hstates.append_right _).append_left _
      · exact (ih ⟨other, hmem, hstates⟩ (before ++ [entry])).append_right _
  exact hfrom entries []

end Entry

/-! ### Texts -/

section Texts

variable {style : Style} {Defines : Block → Prop}

/-- The name and the declared name have no line break in them. -/
def AreUnbroken (recased : Recased) : Prop :=
  Unbroken recased.name ∧ ∀ declared ∈ recased.declared, Unbroken declared

theorem areUnbroken_ofConverted {name converted : String} (hname : Unbroken name)
    (hconverted : Unbroken (Recased.ofConverted name converted).name) : AreUnbroken (.ofConverted name converted) := by
  refine ⟨hconverted, fun declared hdeclared => ?_⟩
  simp only [Recased.ofConverted] at hdeclared
  split at hdeclared
  · cases hdeclared
  · cases hdeclared
    exact hname

theorem areUnbroken_snake {name : String} (h : IsNameText name) : AreUnbroken (.snake name) :=
  areUnbroken_ofConverted h.unbroken (isEmitted_snake h).unbroken

theorem areUnbroken_pascal {name : String} (h : IsNameText name) : AreUnbroken (.pascal name) :=
  areUnbroken_ofConverted h.unbroken (isEmitted_pascal h).unbroken

private theorem ensures_hostText {host : HostType} (h : Unbroken host.name) :
    (hostText host).Ensures Defines Unbroken := by
  unfold hostText
  cases host.source with
  | none => exact .pure h
  | some symbol => exact (Stubs.Ensures.use symbol).bind fun _ _ => .pure h

private theorem unbroken_of_mem_knownHosts {host : HostType} (h : host ∈ knownHosts) : Unbroken host.name := by
  have hnames : ∀ known ∈ knownHosts, Unbroken known.name := by decide
  exact hnames host h

private theorem ensures_typing {symbol : String} (h : Unbroken symbol := by decide) :
    (typing symbol).Ensures Defines Unbroken := ensures_hostText h

theorem unbroken_aliasText {declared : String} (h : Unbroken declared) : Unbroken (aliasText declared) := by
  have hstart : Unbroken "alias('" := by decide
  have hending : Unbroken "')" := by decide
  exact (hstart.append h).append hending

theorem ensures_decorators {recased : Recased} (h : AreUnbroken recased) :
    (aliasLines style recased).Ensures Defines Decorators := by
  unfold aliasLines
  cases hdeclared : recased.declared with
  | none => exact .pure fun _ hcodes => hcodes
  | some declared =>
    exact (Stubs.Ensures.use _).map fun _ _ codes hcodes =>
      opens_decorated (unbroken_aliasText (h.2 declared hdeclared)) hcodes

theorem ensures_annotated {recased : Recased} (h : AreUnbroken recased) {type : String} (htype : Unbroken type) :
    (annotated style recased type).Ensures Defines Unbroken := by
  unfold annotated
  cases hdeclared : recased.declared with
  | none => exact .pure htype
  | some declared =>
    have halias := unbroken_aliasText (h.2 declared hdeclared)
    exact (Stubs.Ensures.use _).bind fun _ _ => (ensures_typing).map fun text htext => by
      simp +decide [unbroken_append, htext, htype, halias]

private theorem ensures_optionalText (optional : Bool) {type : String} (htype : Unbroken type) :
    (optionalText optional type).Ensures Defines Unbroken := by
  unfold optionalText
  split
  · exact (ensures_typing).map fun text htext => by simp +decide [unbroken_append, htext, htype]
  · exact .pure htype

private theorem ensures_literalText {literal : Literal} (h : literal.IsLexical) :
    (literalText literal).Ensures Defines Unbroken := by
  cases literal with
  | null => exact .pure (by decide)
  | unsupported kind => exact (Stubs.Ensures.report _ _).bind fun _ _ => ensures_typing
  | text value =>
    have hvalue : Unbroken value := h
    exact (ensures_typing).map fun text htext => by simp +decide [unbroken_append, htext, hvalue]
  | number digits =>
    have hdigits : Unbroken digits := h
    exact (ensures_typing).map fun text htext => by simp +decide [unbroken_append, htext, hdigits]
  | bool value =>
    exact (ensures_typing).map fun text htext => by cases value <;> simp +decide [unbroken_append, htext]

/-- The comment on a name that is no identifier. -/
theorem ensures_reportName {kind text : String} (hkind : Unbroken kind) (htext : Unbroken text) :
    (reportName kind text).Ensures Defines Code.Nests := by
  refine (Stubs.Ensures.report _ _).bind fun _ _ => .pure ?_
  have hcomment : "# unsupported " ++ kind ++ ": " ++ text = "# " ++ ("unsupported " ++ kind ++ ": " ++ text) := by
    simp only [String.append_assoc]
    rfl
  rw [hcomment]
  exact nests_comment (by simp +decide [unbroken_append, hkind, htext])

theorem unbroken_argumentsText {arguments : List String} (h : ∀ text ∈ arguments, Unbroken text) :
    Unbroken (argumentsText arguments) := by
  unfold argumentsText
  split
  · decide
  · have hitems : Unbroken (", ".intercalate arguments) := .intercalate (by decide) h
    simp +decide [unbroken_append, hitems]

private theorem ensures_referenceText {name : String} (hname : Unbroken name) {arguments : Stubs (List String)}
    (harguments : arguments.Ensures Defines fun texts => ∀ text ∈ texts, Unbroken text) :
    (referenceText name arguments).Ensures Defines Unbroken := by
  have hhead : (referenceHead name).Ensures Defines Unbroken := by
    unfold referenceHead
    split
    · rename_i host hhost
      exact ensures_hostText (unbroken_of_mem_knownHosts (mem_knownHosts_of_ofReference? hhost))
    · exact .pure (unbroken_referenceName hname)
  exact hhead.bind fun head hhead => harguments.map fun texts htexts => hhead.append (unbroken_argumentsText htexts)

private theorem ensures_typedParam {name : String} (hname : Unbroken name) (optional : Bool) {type : String}
    (htype : Unbroken type) : (typedParam name optional type).Ensures Defines Unbroken := by
  unfold typedParam
  split
  · exact (ensures_optionalText true htype).map fun text htext => by simp +decide [unbroken_append, hname, htext]
  · exact .pure (by simp +decide [unbroken_append, hname, htype])

private theorem ensures_untypedParam {name : String} (hname : Unbroken name) (optional : Bool) :
    (untypedParam name optional).Ensures Defines Unbroken := by
  unfold untypedParam
  split
  · exact (ensures_typing).bind fun type htype => ensures_typedParam hname true htype
  · exact .pure hname

private theorem unbroken_paramName? {position : Nat} {name : Name} (h : name.IsLexical) :
    ∀ text ∈ paramName? position name, Unbroken text := by
  intro text htext
  cases name with
  | ident name =>
    rw [paramName?] at htext
    split at htext
    · cases htext
    · cases htext
      exact (isEmitted_snake h).unbroken
  | other kind other =>
    cases htext
    exact .append (by decide) (.decimal position)

/-! ### Properties and classes -/

/-- The stub of a function. -/
theorem opens_stubLine {name : String} (hname : Unbroken name) {params : List String}
    (hparams : ∀ text ∈ params, Unbroken text) {result : Result}
    (hresult : result.head ++ " " ∈ ["def ", "async def "] ∧ Unbroken result.type) :
    Code.Opens [stubLine name params result] ∧ Code.States [stubLine name params result] := by
  have hitems : Unbroken (", ".intercalate params) := .intercalate (by decide) hparams
  have htext : Unbroken (name ++ "(" ++ ", ".intercalate params ++ ") -> " ++ result.type) := by
    simp +decide [unbroken_append, hname, hitems, hresult.2]
  have hline := opens_stub hresult.1 htext
  simp only [stubLine, stubText, String.append_assoc] at hline ⊢
  exact hline

/-- The stub of a constructor, which has no result. -/
private theorem opens_constructor {params : List String} (hparams : ∀ text ∈ params, Unbroken text) :
    Code.Opens [.line ("def __init__(" ++ ", ".intercalate params ++ "): ...")] ∧
      Code.States [.line ("def __init__(" ++ ", ".intercalate params ++ "): ...")] := by
  have hitems : Unbroken (", ".intercalate params) := .intercalate (by decide) hparams
  have htext : Unbroken ("__init__(" ++ ", ".intercalate params ++ ")") := by simp +decide [unbroken_append, hitems]
  have hword : "def " ∈ ["def ", "async def "] := by decide
  have hstart : "def " ++ "__init__(" = "def __init__(" := rfl
  have hending : ")" ++ ": ..." = "): ..." := rfl
  have hline := opens_stub hword htext
  simp only [← hstart, ← hending, String.append_assoc] at hline ⊢
  exact hline

/-- The blank line between members. -/
private theorem nests_separator (separate : Bool) : Code.Nests (separator separate) := by
  unfold separator
  split
  · exact .blank 1
  · exact .nil

/-- The suite of a getter. -/
private theorem nests_raise : Code.Nests [.line "raise NotImplementedError"] ∧
    Code.States [.line "raise NotImplementedError"] := by
  have hline : IsLineText "raise NotImplementedError" := ⟨by decide, by decide, by decide⟩
  exact ⟨.plain hline (by decide) (by decide), .line hline (by decide)⟩

/-- The code of a property is well-nested and a statement. -/
private theorem ensures_propertyCode {name : String} (hname : IsNameText name) (readonly static : Bool) {type : String}
    (htype : Unbroken type) : (propertyCode style (.snake name) readonly static type).Ensures Defines fun code =>
      Code.Nests code ∧ Code.States code := by
  have hemitted := isEmitted_snake hname
  have hrecased := areUnbroken_snake hname
  have hbinding : (bindingCode style (.snake name) type).Ensures Defines fun code =>
      Code.Nests code ∧ Code.States code :=
    (ensures_annotated hrecased htype).map fun text htext => nests_binding hemitted (Or.inl rfl) htext
  have hgetter : (getterCode style (.snake name) type).Ensures Defines fun code =>
      Code.Nests code ∧ Code.States code := by
    refine (ensures_decorators hrecased).map fun aliases haliases => ?_
    have hmark : IsLineText "@property" := ⟨by decide, by decide, by decide⟩
    have hword : "def " ∈ ["class ", "def "] := by decide
    have hheader : Unbroken ((Recased.snake name).name ++ "(self) -> " ++ type) := by
      simp +decide [unbroken_append, hemitted.unbroken, htype]
    have hopens := (haliases _ (opens_suite hword hheader nests_raise.1 nests_raise.2)).decorated hmark (by decide)
    have hstates := (Code.States.line hmark (by decide)).append_left
    simp only [String.append_assoc] at hopens ⊢
    exact ⟨hopens.toNests, hstates _⟩
  have hsetter : (setterCode style (.snake name) type).Ensures Defines Code.Nests := by
    refine (ensures_decorators hrecased).map fun aliases haliases => ?_
    have hword : "def " ∈ ["def ", "async def "] := by decide
    have hparams : Unbroken ((Recased.snake name).name ++ "(self, value: " ++ type ++ ") -> None") := by
      simp +decide [unbroken_append, hemitted.unbroken, htype]
    have hsetter : Unbroken ((Recased.snake name).name ++ ".setter") := hemitted.unbroken.append (by decide)
    have hopens := opens_decorated hsetter (haliases _ (opens_stub hword hparams).1)
    have hending : ") -> None" ++ ": ..." = ") -> None: ..." := rfl
    simp only [String.append_assoc, hending] at hopens ⊢
    exact (Code.Nests.blank 1).append hopens.toNests
  unfold propertyCode
  split
  · exact hbinding
  · split
    · exact hgetter
    · exact hgetter.bind fun getter hgetter => hsetter.map fun setter hsetter =>
        ⟨hgetter.1.append hsetter, hgetter.2.append_left setter⟩

/-- What the members of a scope are like: well-nested, and a statement among them unless there is none. -/
def MembersNest (isEmpty : Bool) (entries : List Entry) : Prop :=
  (∀ entry ∈ entries, entry.Nests) ∧ (isEmpty = false → ∃ entry ∈ entries, Code.States entry.code)

/-- The header of a class. -/
private theorem ensures_classHeader {name : String} (hname : Unbroken name) {bases : List String}
    (hbases : ∀ text ∈ bases, Unbroken text) (isInterface : Bool) :
    (classHeader name bases isInterface).Ensures Defines fun header =>
      ∃ text, header = "class " ++ text ++ ":" ∧ Unbroken text := by
  have hending : ")" ++ ":" = "):" := rfl
  unfold classHeader
  split
  · have hitems : Unbroken (", ".intercalate bases) := .intercalate (by decide) hbases
    exact .pure ⟨name ++ "(" ++ ", ".intercalate bases ++ ")", by simp only [String.append_assoc, hending],
      by simp +decide [unbroken_append, hname, hitems]⟩
  · split
    · exact (ensures_typing).map fun base hbase =>
        ⟨name ++ "(" ++ base ++ ")", by simp only [String.append_assoc, hending],
          by simp +decide [unbroken_append, hname, hbase]⟩
    · exact .pure ⟨name, rfl, hname⟩

/-- The code of a class is well-nested; a line takes the place of members that have no statement. -/
theorem nests_classCode {recased : Recased} (hrecased : AreUnbroken recased) {bases : Stubs (List String)}
    (hbases : bases.Ensures Defines fun texts => ∀ text ∈ texts, Unbroken text) (isInterface : Bool)
    {members : Stubs (List Entry)} {isEmpty : Bool} (hmembers : members.Ensures Defines (MembersNest isEmpty)) :
    (classCode style recased bases isInterface members isEmpty).Ensures Defines fun decl => Code.Nests decl.code := by
  have hdots : IsLineText "..." := ⟨by decide, by decide, by decide⟩
  have hmark : IsLineText "@external" := ⟨by decide, by decide, by decide⟩
  refine (Stubs.Ensures.use _).bind fun _ _ => (ensures_decorators hrecased).bind fun aliases haliases =>
    hbases.bind fun texts htexts => (ensures_classHeader hrecased.1 htexts isInterface).bind fun header hheader =>
      hmembers.bind fun entries hentries => (Stubs.Ensures.useDispatch _ _).bind fun _ _ => .pure ?_
  obtain ⟨text, rfl, htext⟩ := hheader
  obtain ⟨hnests, hstates⟩ := hentries
  have hall : MembersNest false (entries ++ if isEmpty then [.plain [.line "..."]] else []) := by
    cases isEmpty with
    | false => simpa [MembersNest] using ⟨hnests, hstates rfl⟩
    | true =>
      refine ⟨List.forall_mem_append.mpr ⟨hnests, fun entry hentry => ?_⟩, fun _ => ?_⟩
      · rw [List.mem_singleton.mp hentry]
        exact Entry.nests_plain (.plain hdots (by decide) (by decide))
      · exact ⟨_, List.mem_append_right _ (List.mem_singleton_self _), .line hdots (by decide)⟩
  have hword : "class " ∈ ["class ", "def "] := by decide
  have hdispatch : Unbroken "singledispatchmethod" := by decide
  have hbody := Entry.nests_decorate hdispatch hall.1
  have hclass := haliases _ (opens_suite hword htext hbody (Entry.states_decorate (hall.2 rfl)))
  exact (Code.Nests.blank 2).append (hclass.decorated hmark (by decide)).toNests

end Texts

/-! ### Types and members -/

/-- The block is well-nested. -/
def Block.Nests (block : Block) : Prop := Code.Nests block.decl.code

/-- The names of the types that are defined have no line break in them. -/
def Style.IsUnbroken (style : Style) : Prop := ∀ number, Unbroken (style.typeName number)

namespace Style.IsUnbroken

variable {style : Style}

mutual

theorem ensures_typeText (hstyle : style.IsUnbroken) (type : TypeExpr) (h : type.IsLexical) :
    (typeText style type).Ensures Block.Nests Unbroken := by
  match type with
  | .keyword keyword => exact ensures_hostText (unbroken_of_mem_knownHosts (hostType_mem_knownHosts keyword))
  | .parenthesized inner => exact hstyle.ensures_typeText inner h
  | .function params result =>
    refine (hstyle.ensures_optionalTypeText result h.2).bind fun result hresult =>
      (ensures_typing).bind fun callable hcallable => ?_
    split
    · exact .pure (by simp +decide [unbroken_append, hresult, hcallable])
    · refine (hstyle.ensures_paramTypes params h.1).map fun texts htexts => ?_
      have hitems : Unbroken (", ".intercalate texts) := .intercalate (by decide) htexts
      simp +decide [unbroken_append, hresult, hcallable, hitems]
  | .union items => exact (hstyle.ensures_typeTexts items h).map fun texts htexts => .intercalate (by decide) htexts
  | .intersection [] => exact ensures_typing
  | .intersection (first :: _) => exact hstyle.ensures_typeText first h.1
  | .array element =>
    refine (hstyle.ensures_typeText element h).bind fun text htext => ?_
    exact (ensures_typing).map fun list hlist => by simp +decide [unbroken_append, htext, hlist]
  | .tuple items =>
    refine (ensures_typing).bind fun tuple htuple => ?_
    split
    · exact .pure (by simp +decide [unbroken_append, htuple])
    · refine (hstyle.ensures_typeTexts items h).map fun texts htexts => ?_
      have hitems : Unbroken (", ".intercalate texts) := .intercalate (by decide) htexts
      simp +decide [unbroken_append, htuple, hitems]
  | .literal value => exact ensures_literalText h
  | .query name =>
    have hname : Unbroken name := h
    exact (ensures_typing).map fun text htext => by simp +decide [unbroken_append, htext, hname]
  | .members members =>
    intro count
    have hname := hstyle (count + 1)
    have hrecased : AreUnbroken ⟨style.typeName (count + 1), none⟩ := ⟨hname, fun _ hdeclared => by cases hdeclared⟩
    have hbases : (pure [] : Stubs (List String)).Ensures Block.Nests fun texts => ∀ text ∈ texts, Unbroken text :=
      .pure (by simp)
    have hmembers := hstyle.ensures_memberEntries false members h
    obtain ⟨hblocks, hcode⟩ := nests_classCode hrecased hbases true hmembers (count + 1)
    refine ⟨fun block hblock => ?_, hname⟩
    rcases List.mem_append.mp hblock with hblock | hblock
    · exact hblocks block hblock
    · rw [List.mem_singleton.mp hblock]
      exact hcode
  | .reference name arguments => exact ensures_referenceText h.1 (hstyle.ensures_typeTexts arguments h.2)
  | .operator operator operand =>
    rw [typeText]
    split
    · exact .pure (by decide)
    · exact hstyle.ensures_typeText operand h
  | .indexedAccess => exact (Stubs.Ensures.report _ _).bind fun _ _ => ensures_typing
  | .unsupported kind => exact (Stubs.Ensures.report _ _).bind fun _ _ => ensures_typing

theorem ensures_typeTexts (hstyle : style.IsUnbroken) (types : List TypeExpr) (h : TypeExpr.AllLexical types) :
    (typeTexts style types).Ensures Block.Nests fun texts => ∀ text ∈ texts, Unbroken text := by
  match types with
  | [] => exact .pure (by simp)
  | type :: rest =>
    exact (hstyle.ensures_typeText type h.1).bind fun text htext =>
      (hstyle.ensures_typeTexts rest h.2).map fun texts htexts => List.forall_mem_cons.mpr ⟨htext, htexts⟩

theorem ensures_optionalTypeText (hstyle : style.IsUnbroken) (type : Option TypeExpr)
    (h : TypeExpr.OptionLexical type) : (optionalTypeText style type).Ensures Block.Nests Unbroken := by
  match type with
  | some type => exact hstyle.ensures_typeText type h
  | none => exact ensures_typing

theorem ensures_paramTypes (hstyle : style.IsUnbroken) (params : List Param) (h : Param.AllLexical params) :
    (paramTypes style params).Ensures Block.Nests fun texts => ∀ text ∈ texts, Unbroken text := by
  match params with
  | [] => exact .pure (by simp)
  | .mk name type optional _ :: rest =>
    exact (hstyle.ensures_optionalTypeText type h.1.2).bind fun text htext =>
      (ensures_optionalText optional htext).bind fun text htext => (hstyle.ensures_paramTypes rest h.2).map
        fun texts htexts => List.forall_mem_cons.mpr ⟨htext, htexts⟩

theorem ensures_paramText (hstyle : style.IsUnbroken) (position : Nat) (param : Param) (h : param.IsLexical) :
    (paramText style position param).Ensures Block.Nests fun text? => ∀ text ∈ text?, Unbroken text := by
  match param with
  | .mk name type optional rest =>
    rw [paramText]
    split
    · exact .pure (by simp)
    · rename_i shown hshown
      have hname : Unbroken shown := unbroken_paramName? h.1 shown hshown
      have hrest : ∀ text, Unbroken text → ∀ param ∈ some ("*" ++ shown ++ ": " ++ text), Unbroken param := by
        rintro text htext _ ⟨⟩
        simp +decide [unbroken_append, hname, htext]
      split
      · split
        · rename_i element
          exact (hstyle.ensures_typeText element h.2).map hrest
        · exact (hstyle.ensures_optionalTypeText type h.2).map hrest
      · split
        · rename_i type
          exact (hstyle.ensures_typeText type h.2).bind fun text htext => (ensures_typedParam hname optional htext).map
            fun param hparam => by simpa using hparam
        · exact (ensures_untypedParam hname optional).map fun param hparam => by simpa using hparam

theorem ensures_paramTexts (hstyle : style.IsUnbroken) (position : Nat) (params : List Param)
    (h : Param.AllLexical params) :
    (paramTexts style position params).Ensures Block.Nests fun texts => ∀ text ∈ texts, Unbroken text := by
  match params with
  | [] => exact .pure (by simp)
  | param :: others =>
    exact (hstyle.ensures_paramText position param h.1).bind fun text? htext =>
      (hstyle.ensures_paramTexts (position + 1) others h.2).map fun texts htexts =>
        List.forall_mem_append.mpr ⟨by simpa using htext, htexts⟩

theorem ensures_resultText (hstyle : style.IsUnbroken) (type : Option TypeExpr) (h : TypeExpr.OptionLexical type) :
    (resultText style type).Ensures Block.Nests fun result =>
      result.head ++ " " ∈ ["def ", "async def "] ∧ Unbroken result.type := by
  have hdef : "def" ++ " " ∈ ["def ", "async def "] := by decide
  have hasync : "async def" ++ " " ∈ ["def ", "async def "] := by decide
  unfold resultText
  split
  · split
    · exact (ensures_typing).map fun text htext => ⟨hasync, htext⟩
    · exact (ensures_referenceText h.1 (.pure (by simp))).map fun text htext => ⟨hdef, htext⟩
  · rename_i name inner others
    split
    · exact (hstyle.ensures_typeText inner h.2.1).map fun text htext => ⟨hasync, htext⟩
    · have harguments := hstyle.ensures_typeTexts (inner :: others) h.2
      exact (ensures_referenceText h.1 harguments).map fun text htext => ⟨hdef, htext⟩
  · rename_i type _ _
    exact (hstyle.ensures_typeText type h).map fun text htext => ⟨hdef, htext⟩
  · exact (ensures_typing).map fun text htext => ⟨hdef, htext⟩

theorem ensures_memberEntry (hstyle : style.IsUnbroken) (separate : Bool) (member : Member) (h : member.IsLexical) :
    (memberEntry style separate member).Ensures Block.Nests fun entry =>
      entry.Nests ∧ (member.isEmitted = true → Code.States entry.code) := by
  match member with
  | .property (.other kind text) .. =>
    exact (ensures_reportName h.1.1 h.1.2).map fun code hcode => ⟨Entry.nests_plain hcode, fun hnone => by cases hnone⟩
  | .property (.ident name) type optional readonly static =>
    refine (hstyle.ensures_optionalTypeText type h.2).bind fun text htext => (ensures_optionalText optional htext).bind
      fun text htext => (ensures_propertyCode h.1 readonly static htext).map fun code hcode => ?_
    exact ⟨⟨nests_separator separate, hcode.1, fun name hname => by cases hname⟩, fun _ => hcode.2⟩
  | .method (.other kind text) .. =>
    exact (ensures_reportName h.1.1 h.1.2).map fun code hcode => ⟨Entry.nests_plain hcode, fun hnone => by cases hnone⟩
  | .method (.ident name) params result =>
    refine (ensures_decorators (areUnbroken_snake h.1)).bind fun aliases haliases =>
      (hstyle.ensures_paramTexts 0 params h.2.1).bind fun texts htexts =>
        (hstyle.ensures_resultText result h.2.2).map fun result hresult => ?_
    have hname := (isEmitted_snake h.1).unbroken
    have hself : Unbroken "self" := by decide
    obtain ⟨hopens, hstates⟩ := opens_stubLine hname (List.forall_mem_cons.mpr ⟨hself, htexts⟩) hresult
    have hcode := haliases _ hopens
    exact ⟨⟨nests_separator separate, hcode.toNests, fun _ hsome => by cases hsome; exact ⟨hname, hcode⟩⟩,
      fun _ => hstates.append_right aliases⟩
  | .constructor params =>
    refine (hstyle.ensures_paramTexts 0 params h).map fun texts htexts => ?_
    have hself : Unbroken "self" := by decide
    have hname : Unbroken "__init__" := by decide
    obtain ⟨hopens, hstates⟩ := opens_constructor (List.forall_mem_cons.mpr ⟨hself, htexts⟩)
    exact ⟨⟨nests_separator separate, hopens.toNests, fun _ hsome => by cases hsome; exact ⟨hname, hopens⟩⟩,
      fun _ => hstates⟩
  | .unsupported kind =>
    exact (Stubs.Ensures.report _ _).bind fun _ _ => .pure ⟨Entry.nests_plain .nil, fun hemitted => by cases hemitted⟩

theorem ensures_memberEntries (hstyle : style.IsUnbroken) (separate : Bool) (members : List Member)
    (h : Member.AllLexical members) :
    (memberEntries style separate members).Ensures Block.Nests (MembersNest (!members.any Member.isEmitted)) := by
  match members with
  | [] => exact .pure ⟨by simp, fun hempty => by cases hempty⟩
  | member :: rest =>
    refine (hstyle.ensures_memberEntry separate member h.1).bind fun entry hentry =>
      (hstyle.ensures_memberEntries _ rest h.2).map fun entries hentries => ?_
    refine ⟨List.forall_mem_cons.mpr ⟨hentry.1, hentries.1⟩, fun hsome => ?_⟩
    rw [List.any_cons, Bool.not_eq_false', Bool.or_eq_true] at hsome
    rcases hsome with hsome | hsome
    · exact ⟨entry, List.mem_cons_self .., hentry.2 hsome⟩
    · obtain ⟨other, hmem, hstates⟩ := hentries.2 (by rw [hsome]; rfl)
      exact ⟨other, List.mem_cons_of_mem entry hmem, hstates⟩

end

end Style.IsUnbroken

end StubGen.DeclFile
