import StubGen.Proofs.Imports.Words
import StubGen.Proofs.Stub.Overload

/-!
# Host symbols in stubs

The host symbols in the text of a stub module are used, or they come from the names and literals of its declarations.

* `TypeExpr.texts`, `Member.texts` and `Statement.texts` list what the text takes from the syntax.
* `Stubs.Supplies` says that the types that a piece defines and the text that it yields are supplied by its uses.
* `supplies_typeText` and `supplies_memberEntries` follow the generator through types and members, and
  `supplies_statementParts` through statements.
-/

namespace StubGen.DeclFile

/-! ### What comes from the syntax -/

/-- The texts of a name: the emitted one, and the declared one where that is told. -/
def nameTexts (recased : Recased) : List String := recased.name :: recased.declared.toList

/-- The text of a name in a reference, unless it names a host type. -/
def headTexts (name : String) : List String :=
  if (HostType.ofReference? name).isSome then [] else [referenceName name]

def Literal.texts : Literal → List String
  | .text value => [value]
  | .number digits => [digits]
  | _ => []

mutual

/-- The texts that the annotation of a type takes from it. -/
def TypeExpr.texts : TypeExpr → List String
  | .keyword _ => []
  | .parenthesized inner => inner.texts
  | .function params result =>
    TypeExpr.optionTexts result ++ if params.any Param.isRest then [] else Param.typeTexts params
  | .union items => TypeExpr.allTexts items
  | .intersection [] => []
  | .intersection (first :: _) => first.texts
  | .array element => element.texts
  | .tuple items => TypeExpr.allTexts items
  | .literal value => value.texts
  | .query name => [name]
  | .members members => Member.allTexts members
  | .reference name arguments => headTexts name ++ TypeExpr.allTexts arguments
  | .operator operator operand => if operator = "keyof" then [] else operand.texts
  | .indexedAccess => []
  | .unsupported _ => []
termination_by structural type => type

def TypeExpr.allTexts : List TypeExpr → List String
  | [] => []
  | type :: rest => type.texts ++ TypeExpr.allTexts rest
termination_by structural types => types

def TypeExpr.optionTexts : Option TypeExpr → List String
  | some type => type.texts
  | none => []
termination_by structural type => type

/-- The texts of the parameters of a function type. -/
def Param.typeTexts : List Param → List String
  | [] => []
  | .mk _ type _ _ :: rest => TypeExpr.optionTexts type ++ Param.typeTexts rest
termination_by structural params => params

/-- The texts of a parameter of a function; `this` is not written. -/
def Param.texts : Param → List String
  | .mk (.ident name) type _ _ =>
    if name = "this" then [] else (Recased.snake name).name :: TypeExpr.optionTexts type
  | .mk (.other ..) type _ _ => TypeExpr.optionTexts type
termination_by structural param => param

def Param.allTexts : List Param → List String
  | [] => []
  | param :: others => param.texts ++ Param.allTexts others
termination_by structural params => params

/-- The texts of the result of a function; of a promise only the first argument is written. -/
def TypeExpr.resultTexts : Option TypeExpr → List String
  | some (.reference name []) => if name = "Promise" then [] else headTexts name
  | some (.reference name (inner :: others)) =>
    if name = "Promise" then inner.texts else headTexts name ++ TypeExpr.allTexts (inner :: others)
  | some type => type.texts
  | none => []
termination_by structural type => type

/-- The texts of a member. -/
def Member.texts : Member → List String
  | .property (.other kind text) .. => [kind, text]
  | .property (.ident name) type .. => nameTexts (.snake name) ++ TypeExpr.optionTexts type
  | .method (.other kind text) .. => [kind, text]
  | .method (.ident name) params result =>
    nameTexts (.snake name) ++ (Param.allTexts params ++ TypeExpr.resultTexts result)
  | .constructor params => Param.allTexts params
  | .unsupported _ => []
termination_by structural member => member

def Member.allTexts : List Member → List String
  | [] => []
  | member :: rest => member.texts ++ Member.allTexts rest
termination_by structural members => members

end

/-- The texts of a class or interface, if it has a name. -/
def ClassDecl.texts (decl : ClassDecl) : List String :=
  match decl.name with
  | .other .. => []
  | .ident name =>
    nameTexts (.pascal name) ++
      ((decl.heritage.flatten.flatMap fun base => referenceName base.name :: TypeExpr.allTexts base.arguments) ++
        Member.allTexts decl.members)

def EnumMember.texts (member : EnumMember) : List String :=
  match member.name with
  | .other kind text => [kind, text]
  | .ident name => escapeName name :: (member.value.map Literal.texts).getD []

def Variable.texts (declared : Variable) : List String :=
  match declared.name with
  | .other .. => []
  | .ident name => nameTexts (.snake name) ++ TypeExpr.optionTexts declared.type

/-- The texts that the code of a statement takes from it. -/
def Statement.texts : Statement → List String
  | .classDecl decl => decl.texts
  | .interface decl => decl.texts
  | .function (.other ..) .. => []
  | .function (.ident name) params result =>
    nameTexts (.snake name) ++ (Param.allTexts params ++ TypeExpr.resultTexts result)
  | .typeAlias (.other ..) _ => []
  | .typeAlias (.ident name) type => (Recased.pascal name).name :: type.texts
  | .enum (.other ..) _ => []
  | .enum (.ident name) members => (Recased.pascal name).name :: members.flatMap EnumMember.texts
  | .variableDecls declared => declared.flatMap Variable.texts
  | .module => []
  | .unsupported _ => []

/-! ### Pieces -/

/-- If the symbols that the piece uses are used, then so are the host symbols in the types that it defines, and its
value has the property. -/
def Stubs.Supplies {α : Type} (style : Style) (Used : Import → Prop) (Yields : α → Prop) (piece : Stubs α) : Prop :=
  ∀ count, (∀ symbol ∈ (piece count).1.uses, Used symbol) →
    (∀ block ∈ (piece count).1.blocks, SuppliedCode style.runtimeModule Used block.decl.code) ∧ Yields (piece count).2

namespace Stubs.Supplies

variable {α β : Type} {style : Style} {Used : Import → Prop} {Yields : α → Prop} {Results : β → Prop}

protected theorem pure {value : α} (h : Yields value) : (pure value : Stubs α).Supplies style Used Yields :=
  fun _ _ => ⟨by simp [pure_apply, Log.empty], h⟩

theorem bind {first : Stubs α} {next : α → Stubs β} (hfirst : first.Supplies style Used Yields)
    (hnext : ∀ value, Yields value → (next value).Supplies style Used Results) :
    (first >>= next).Supplies style Used Results := by
  intro count huses
  rw [bind_apply, Log.uses_append, List.forall_mem_append] at huses
  obtain ⟨hblocks, hvalue⟩ := hfirst count huses.1
  obtain ⟨hmore, hresult⟩ := hnext _ hvalue _ huses.2
  rw [bind_apply]
  exact ⟨List.forall_mem_append.mpr ⟨hblocks, hmore⟩, hresult⟩

theorem map {first : Stubs α} (hfirst : first.Supplies style Used Yields) {f : α → β}
    (hf : ∀ value, Yields value → Results (f value)) :
    (do return f (← first) : Stubs β).Supplies style Used Results :=
  hfirst.bind fun value hvalue => .pure (hf value hvalue)

theorem mono {Others : α → Prop} {piece : Stubs α} (h : piece.Supplies style Used Yields)
    (hvalues : ∀ value, Yields value → Others value) : piece.Supplies style Used Others :=
  fun count huses => ⟨(h count huses).1, hvalues _ (h count huses).2⟩

theorem use (symbol : Import) : (Stubs.use symbol).Supplies style Used fun _ => Used symbol :=
  fun _ huses => ⟨by simp [Stubs.use], huses symbol (List.mem_singleton_self symbol)⟩

theorem report (kind message : String) : (Stubs.report kind message).Supplies style Used fun _ => True :=
  fun _ _ => ⟨by simp [Stubs.report], True.intro⟩

theorem mapM {f : α → Stubs β} {items : List α} (h : ∀ item ∈ items, (f item).Supplies style Used Results) :
    (items.mapM f).Supplies style Used fun results => ∀ result ∈ results, Results result := by
  induction items with
  | nil => exact .pure (List.forall_mem_nil _)
  | cons item rest ih =>
    obtain ⟨hitem, hrest⟩ := List.forall_mem_cons.mp h
    rw [List.mapM_cons]
    exact hitem.bind fun result hresult => (ih hrest).map fun results hresults =>
      List.forall_mem_cons.mpr ⟨hresult, hresults⟩

end Stubs.Supplies

/-! ### Texts -/

section Texts

variable {style : Style} {Used : Import → Prop}

private theorem supplies_typing (symbol : String) (h : symbol ∈ typingSymbols := by decide) :
    (typing symbol).Supplies style Used (Supplied style.runtimeModule Used) := by
  have himportable : ⟨"typing", symbol⟩ ∈ importable style.runtimeModule :=
    List.mem_append_left _ (List.mem_append_left _ (List.mem_append_left _ (List.mem_map_of_mem h)))
  exact (Stubs.Supplies.use ⟨"typing", symbol⟩).map fun _ hused => supplied_symbol _ himportable hused

private theorem supplies_hostText {host : HostType} (h : host ∈ knownHosts) :
    (hostText host).Supplies style Used (Supplied style.runtimeModule Used) := by
  rcases List.mem_append.mp h with h | h
  · obtain ⟨name, hname, rfl⟩ := List.mem_map.mp h
    have hplain : ∀ name ∈ ["None", "bool", "int", "str", "object", "True", "False"], isPlain name = true := by decide
    exact .pure (supplied_of_isPlain (hplain name hname))
  · obtain ⟨name, hname, rfl⟩ := List.mem_map.mp h
    exact supplies_typing name hname

private theorem supplied_aliasText {declared : String} (hused : Used ⟨style.runtimeModule, "alias"⟩)
    (h : Supplied style.runtimeModule Used declared) : Supplied style.runtimeModule Used (aliasText declared) := by
  have halias : ⟨style.runtimeModule, "alias"⟩ ∈ importable style.runtimeModule := by simp [importable]
  have hopening : Supplied style.runtimeModule Used "alias('" :=
    supplied_symbol_append _ halias hused (by decide : startsApart "('" = true) (by decide)
  simp +decide [aliasText, h, hopening]

private theorem supplies_aliasLines {recased : Recased}
    (h : ∀ text ∈ nameTexts recased, Supplied style.runtimeModule Used text) :
    (aliasLines style recased).Supplies style Used (SuppliedCode style.runtimeModule Used) := by
  unfold aliasLines
  cases hdeclared : recased.declared with
  | none => exact .pure .nil
  | some declared =>
    have hname : Supplied style.runtimeModule Used declared := h declared (by simp [nameTexts, hdeclared])
    refine (Stubs.Supplies.use _).map fun _ hused => .line ?_
    have htext := supplied_aliasText hused hname
    simp +decide [htext]

private theorem supplies_annotated {recased : Recased} {type : String}
    (h : ∀ text ∈ nameTexts recased, Supplied style.runtimeModule Used text)
    (htype : Supplied style.runtimeModule Used type) :
    (annotated style recased type).Supplies style Used (Supplied style.runtimeModule Used) := by
  unfold annotated
  cases hdeclared : recased.declared with
  | none => exact .pure htype
  | some declared =>
    have hname : Supplied style.runtimeModule Used declared := h declared (by simp [nameTexts, hdeclared])
    refine (Stubs.Supplies.use _).bind fun _ hused => (supplies_typing "Annotated").map fun annotated hannotated => ?_
    have htext := supplied_aliasText hused hname
    simp +decide [htype, hannotated, htext]

private theorem supplies_literalText {literal : Literal}
    (h : ∀ text ∈ literal.texts, Supplied style.runtimeModule Used text) :
    (literalText literal).Supplies style Used (Supplied style.runtimeModule Used) := by
  cases literal with
  | null => exact .pure (supplied_of_isPlain (by decide))
  | unsupported kind => exact (Stubs.Supplies.report _ _).bind fun _ _ => supplies_typing "Any"
  | text value =>
    have hvalue := h value (List.mem_singleton_self value)
    refine (supplies_typing "Literal").map fun literal hliteral => ?_
    simp +decide [hvalue, hliteral]
  | number digits =>
    have hdigits := h digits (List.mem_singleton_self digits)
    refine (supplies_typing "Literal").map fun literal hliteral => ?_
    simp +decide [hdigits, hliteral]
  | bool value =>
    refine (supplies_typing "Literal").map fun literal hliteral => ?_
    cases value <;> simp +decide [hliteral]

private theorem supplies_reportName {kind text : String} (hkind : Supplied style.runtimeModule Used kind)
    (htext : Supplied style.runtimeModule Used text) :
    (reportName kind text).Supplies style Used (SuppliedCode style.runtimeModule Used) :=
  (Stubs.Supplies.report _ _).map fun _ _ => .line (by simp +decide [hkind, htext])

private theorem supplies_optionalText (optional : Bool) {type : String}
    (htype : Supplied style.runtimeModule Used type) :
    (optionalText optional type).Supplies style Used (Supplied style.runtimeModule Used) := by
  unfold optionalText
  split
  · exact (supplies_typing "Optional").map fun optional hoptional => by simp +decide [hoptional, htype]
  · exact .pure htype

private theorem supplies_propertyCode {recased : Recased}
    (h : ∀ text ∈ nameTexts recased, Supplied style.runtimeModule Used text) (readonly static : Bool) {type : String}
    (htype : Supplied style.runtimeModule Used type) :
    (propertyCode style recased readonly static type).Supplies style Used (SuppliedCode style.runtimeModule Used) := by
  have hname := h recased.name (List.mem_cons_self ..)
  have hraise : SuppliedCode style.runtimeModule Used [.line "raise NotImplementedError"] := .line (by simp +decide)
  have hgetter : (getterCode style recased type).Supplies style Used (SuppliedCode style.runtimeModule Used) := by
    refine (supplies_aliasLines h).map fun aliases haliases => ?_
    have hproperty : SuppliedCode style.runtimeModule Used [.line "@property"] := .line (by simp +decide)
    exact (hproperty.append haliases).append (.suite (by simp +decide [hname, htype]) hraise)
  have hsetter : (setterCode style recased type).Supplies style Used (SuppliedCode style.runtimeModule Used) := by
    refine (supplies_aliasLines h).map fun aliases haliases => ?_
    have hdecorator : SuppliedCode style.runtimeModule Used [.line ("@" ++ recased.name ++ ".setter")] :=
      .line (by simp +decide [hname])
    exact (((SuppliedCode.blank 1).append hdecorator).append haliases).append (.line (by simp +decide [hname, htype]))
  unfold propertyCode
  split
  · exact (supplies_annotated h htype).map fun text htext => .line (by simp +decide [hname, htext])
  · split
    · exact hgetter
    · exact hgetter.bind fun getter hcode => hsetter.map fun setter h => hcode.append h

private theorem supplied_argumentsText {arguments : List String}
    (h : ∀ text ∈ arguments, Supplied style.runtimeModule Used text) :
    startsApart (argumentsText arguments) = true ∧ Supplied style.runtimeModule Used (argumentsText arguments) := by
  have hitems := supplied_commas h
  unfold argumentsText
  split
  · simp +decide
  · simp +decide [hitems]

private theorem supplies_referenceText {name : String}
    (hname : ∀ text ∈ headTexts name, Supplied style.runtimeModule Used text) {arguments : Stubs (List String)}
    (harguments : arguments.Supplies style Used fun texts => ∀ text ∈ texts, Supplied style.runtimeModule Used text) :
    (referenceText name arguments).Supplies style Used (Supplied style.runtimeModule Used) := by
  have hhead : (referenceHead name).Supplies style Used (Supplied style.runtimeModule Used) := by
    unfold referenceHead
    split
    · next host hhost => exact supplies_hostText (mem_knownHosts_of_ofReference? hhost)
    · next hnone => exact .pure (hname _ (by simp [headTexts, hnone]))
  refine hhead.bind fun head hhead => harguments.map fun texts htexts => ?_
  obtain ⟨hstart, htext⟩ := supplied_argumentsText htexts
  exact (supplied_append_right hstart).mpr ⟨hhead, htext⟩

private theorem supplies_typedParam {name : String} (hname : Supplied style.runtimeModule Used name) (optional : Bool)
    {type : String} (htype : Supplied style.runtimeModule Used type) :
    (typedParam name optional type).Supplies style Used (Supplied style.runtimeModule Used) := by
  unfold typedParam
  split
  · exact (supplies_optionalText true htype).map fun text htext => by simp +decide [hname, htext]
  · exact .pure (by simp +decide [hname, htype])

private theorem supplies_untypedParam {name : String} (hname : Supplied style.runtimeModule Used name)
    (optional : Bool) : (untypedParam name optional).Supplies style Used (Supplied style.runtimeModule Used) := by
  unfold untypedParam
  split
  · exact (supplies_typing "Any").bind fun type htype => supplies_typedParam hname true htype
  · exact .pure hname

private theorem supplied_stubLine {name : String} (hname : Supplied style.runtimeModule Used name)
    {params : List String} (hparams : ∀ text ∈ params, Supplied style.runtimeModule Used text) {result : Result}
    (hhead : Supplied style.runtimeModule Used result.head) (htype : Supplied style.runtimeModule Used result.type) :
    SuppliedCode style.runtimeModule Used [stubLine name params result] := by
  have hitems := supplied_commas hparams
  exact .line (by simp +decide [stubText, hname, hitems, hhead, htype])

/-! ### Scopes -/

/-- The host symbols in the code of the declaration and in its name are used. -/
structure SuppliedEntry (style : Style) (Used : Import → Prop) (entry : Entry) : Prop where
  ahead : SuppliedCode style.runtimeModule Used entry.ahead
  code : SuppliedCode style.runtimeModule Used entry.code
  name : ∀ name ∈ entry.name, Supplied style.runtimeModule Used name

theorem SuppliedEntry.plain {code : List Code} (h : SuppliedCode style.runtimeModule Used code) :
    SuppliedEntry style Used (.plain code) := ⟨.nil, h, fun _ hname => by cases hname⟩

theorem supplied_decorateFrom {dispatch : String} {all rest : List Entry}
    (hdispatch : Entry.hasOverloads all = true → Supplied style.runtimeModule Used dispatch) (before : List Entry)
    (h : ∀ entry ∈ rest, SuppliedEntry style Used entry) :
    SuppliedCode style.runtimeModule Used (Entry.decorateFrom dispatch all before rest) := by
  have hdecorator : ∀ before name, Supplied style.runtimeModule Used name →
      SuppliedCode style.runtimeModule Used (Entry.decorator dispatch all before name) := by
    intro before name hname
    unfold Entry.decorator
    split
    · exact .nil
    · next hmany =>
      have hoverloads := (Entry.hasOverloads_iff all).mpr ⟨name, Nat.lt_of_not_le hmany⟩
      split
      · exact .line (by simp +decide [hdispatch hoverloads])
      · exact .line (by simp +decide [hname])
  induction rest generalizing before with
  | nil => exact .nil
  | cons entry rest ih =>
    obtain ⟨hentry, hrest⟩ := List.forall_mem_cons.mp h
    have hlines : SuppliedCode style.runtimeModule Used
        (entry.name.elim [] (Entry.decorator dispatch all before)) := by
      cases hname : entry.name with
      | none => exact .nil
      | some name => exact hdecorator before name (hentry.name name hname)
    exact ((hentry.ahead.append hlines).append hentry.code).append (ih _ hrest)

theorem supplies_useDispatch (dispatch : String) (entries : List Entry) :
    (useDispatch dispatch entries).Supplies style Used fun _ =>
      Entry.hasOverloads entries = true → Used ⟨"functools", dispatch⟩ := by
  unfold useDispatch
  split
  · exact (Stubs.Supplies.use _).mono fun _ hused _ => hused
  · next hnone => exact .pure fun hoverloads => absurd hoverloads hnone

private theorem supplies_classHeader {name : String} (hname : Supplied style.runtimeModule Used name)
    {bases : List String} (hbases : ∀ text ∈ bases, Supplied style.runtimeModule Used text) (isInterface : Bool) :
    (classHeader name bases isInterface).Supplies style Used (Supplied style.runtimeModule Used) := by
  have hitems := supplied_commas hbases
  unfold classHeader
  split
  · exact .pure (by simp +decide [hname, hitems])
  · split
    · exact (supplies_typing "Protocol").map fun text htext => by simp +decide [hname, htext]
    · exact .pure (by simp +decide [hname])

private theorem supplies_classCode {recased : Recased}
    (h : ∀ text ∈ nameTexts recased, Supplied style.runtimeModule Used text) {bases : Stubs (List String)}
    (hbases : bases.Supplies style Used fun texts => ∀ text ∈ texts, Supplied style.runtimeModule Used text)
    {members : Stubs (List Entry)}
    (hmembers : members.Supplies style Used fun entries => ∀ entry ∈ entries, SuppliedEntry style Used entry)
    (isInterface isEmpty : Bool) :
    (classCode style recased bases isInterface members isEmpty).Supplies style Used fun decl =>
      SuppliedCode style.runtimeModule Used decl.code := by
  refine (Stubs.Supplies.use _).bind fun _ hexternal => (supplies_aliasLines h).bind fun aliases haliases =>
    hbases.bind fun texts htexts =>
      (supplies_classHeader (h recased.name (List.mem_cons_self ..)) htexts isInterface).bind fun header hheader =>
        hmembers.bind fun entries hentries => (supplies_useDispatch _ _).map fun _ hdispatch => ?_
  have hdecorator : Supplied style.runtimeModule Used "@external" :=
    supplied_append_symbol ⟨style.runtimeModule, "external"⟩ (by simp [importable]) hexternal
      (by decide : endsApart "@" = true) (by decide)
  have hscope : SuppliedCode style.runtimeModule Used (Entry.decorate "singledispatchmethod"
      (entries ++ if isEmpty then [.plain [.line "..."]] else [])) := by
    refine supplied_decorateFrom (fun hoverloads => ?_) [] (List.forall_mem_append.mpr ⟨hentries, ?_⟩)
    · exact supplied_symbol ⟨"functools", "singledispatchmethod"⟩ (by simp [importable]) (hdispatch hoverloads)
    · cases isEmpty with
      | false => exact List.forall_mem_nil _
      | true => exact List.forall_mem_singleton.mpr (.plain (.line (by simp +decide)))
  exact (((SuppliedCode.blank 2).append (.line hdecorator)).append haliases).append (.suite hheader hscope)

/-- The name of a parameter that is written comes from it, and so do the texts of its type. -/
private theorem supplied_param {position : Nat} {name : Name} {type : Option TypeExpr} {optional rest : Bool}
    (h : ∀ text ∈ (Param.mk name type optional rest).texts, Supplied style.runtimeModule Used text) {shown : String}
    (hshown : paramName? position name = some shown) : Supplied style.runtimeModule Used shown ∧
      ∀ text ∈ TypeExpr.optionTexts type, Supplied style.runtimeModule Used text := by
  cases name with
  | ident name =>
    rw [paramName?] at hshown
    rw [Param.texts] at h
    split at hshown
    · cases hshown
    · next hthis =>
      cases hshown
      rw [if_neg hthis] at h
      exact List.forall_mem_cons.mp h
  | other kind text =>
    cases hshown
    exact ⟨supplied_numbered position, h⟩

/-! ### Types and members -/

mutual

theorem supplies_typeText (hnames : ∀ number, Supplied style.runtimeModule Used (style.typeName number))
    (type : TypeExpr) (h : ∀ text ∈ type.texts, Supplied style.runtimeModule Used text) :
    (typeText style type).Supplies style Used (Supplied style.runtimeModule Used) := by
  match type with
  | .keyword keyword => exact supplies_hostText (hostType_mem_knownHosts keyword)
  | .parenthesized inner => exact supplies_typeText hnames inner h
  | .function params result =>
    obtain ⟨hresult, hparams⟩ := List.forall_mem_append.mp h
    refine (supplies_optionalTypeText hnames result hresult).bind fun result hresult =>
      (supplies_typing "Callable").bind fun callable hcallable => ?_
    split
    · exact .pure (by simp +decide [hresult, hcallable])
    · next hrest =>
      rw [if_neg hrest] at hparams
      refine (supplies_paramTypes hnames params hparams).map fun texts htexts => ?_
      have hitems := supplied_commas htexts
      simp +decide [hresult, hcallable, hitems]
  | .union items =>
    exact (supplies_typeTexts hnames items h).map fun texts htexts =>
      supplied_intercalate " | " (by decide) (by decide) (by decide) (by decide) htexts
  | .intersection [] => exact supplies_typing "Any"
  | .intersection (first :: _) => exact supplies_typeText hnames first h
  | .array element =>
    refine (supplies_typeText hnames element h).bind fun text htext => ?_
    exact (supplies_typing "List").map fun list hlist => by simp +decide [htext, hlist]
  | .tuple items =>
    refine (supplies_typing "Tuple").bind fun tuple htuple => ?_
    split
    · exact .pure (by simp +decide [htuple])
    · refine (supplies_typeTexts hnames items h).map fun texts htexts => ?_
      have hitems := supplied_commas htexts
      simp +decide [htuple, hitems]
  | .literal value => exact supplies_literalText h
  | .query name =>
    have hname := h name (List.mem_singleton_self name)
    exact (supplies_typing "Type").map fun text htext => by simp +decide [htext, hname]
  | .members members =>
    intro count huses
    have hname := hnames (count + 1)
    have hrecased : ∀ text ∈ nameTexts ⟨style.typeName (count + 1), none⟩, Supplied style.runtimeModule Used text :=
      List.forall_mem_singleton.mpr hname
    have hmembers := supplies_memberEntries hnames false members h
    obtain ⟨hblocks, hcode⟩ := supplies_classCode hrecased (.pure (List.forall_mem_nil _)) hmembers true
      (!members.any Member.isEmitted) (count + 1) fun symbol hsymbol => huses symbol (List.mem_append_left _ hsymbol)
    exact ⟨List.forall_mem_append.mpr ⟨hblocks, List.forall_mem_singleton.mpr hcode⟩, hname⟩
  | .reference name arguments =>
    obtain ⟨hname, harguments⟩ := List.forall_mem_append.mp h
    exact supplies_referenceText hname (supplies_typeTexts hnames arguments harguments)
  | .operator operator operand =>
    rw [typeText]
    rw [TypeExpr.texts] at h
    split
    · exact .pure (by simp +decide)
    · next hkeyof =>
      rw [if_neg hkeyof] at h
      exact supplies_typeText hnames operand h
  | .indexedAccess => exact (Stubs.Supplies.report _ _).bind fun _ _ => supplies_typing "Any"
  | .unsupported kind => exact (Stubs.Supplies.report _ _).bind fun _ _ => supplies_typing "Any"

theorem supplies_typeTexts (hnames : ∀ number, Supplied style.runtimeModule Used (style.typeName number))
    (types : List TypeExpr) (h : ∀ text ∈ TypeExpr.allTexts types, Supplied style.runtimeModule Used text) :
    (typeTexts style types).Supplies style Used fun texts =>
      ∀ text ∈ texts, Supplied style.runtimeModule Used text := by
  match types with
  | [] => exact .pure (List.forall_mem_nil _)
  | type :: rest =>
    obtain ⟨htype, hrest⟩ := List.forall_mem_append.mp h
    exact (supplies_typeText hnames type htype).bind fun text htext =>
      (supplies_typeTexts hnames rest hrest).map fun texts htexts => List.forall_mem_cons.mpr ⟨htext, htexts⟩

theorem supplies_optionalTypeText (hnames : ∀ number, Supplied style.runtimeModule Used (style.typeName number))
    (type : Option TypeExpr) (h : ∀ text ∈ TypeExpr.optionTexts type, Supplied style.runtimeModule Used text) :
    (optionalTypeText style type).Supplies style Used (Supplied style.runtimeModule Used) := by
  match type with
  | some type => exact supplies_typeText hnames type h
  | none => exact supplies_typing "Any"

theorem supplies_paramTypes (hnames : ∀ number, Supplied style.runtimeModule Used (style.typeName number))
    (params : List Param) (h : ∀ text ∈ Param.typeTexts params, Supplied style.runtimeModule Used text) :
    (paramTypes style params).Supplies style Used fun texts =>
      ∀ text ∈ texts, Supplied style.runtimeModule Used text := by
  match params with
  | [] => exact .pure (List.forall_mem_nil _)
  | .mk _ type optional _ :: rest =>
    obtain ⟨htype, hrest⟩ := List.forall_mem_append.mp h
    exact (supplies_optionalTypeText hnames type htype).bind fun text htext =>
      (supplies_optionalText optional htext).bind fun text htext => (supplies_paramTypes hnames rest hrest).map
        fun texts htexts => List.forall_mem_cons.mpr ⟨htext, htexts⟩

theorem supplies_paramText (hnames : ∀ number, Supplied style.runtimeModule Used (style.typeName number))
    (position : Nat) (param : Param) (h : ∀ text ∈ param.texts, Supplied style.runtimeModule Used text) :
    (paramText style position param).Supplies style Used fun text? =>
      ∀ text ∈ text?, Supplied style.runtimeModule Used text := by
  match param with
  | .mk name type optional rest =>
    rw [paramText]
    split
    · exact .pure (fun _ hnone => by cases hnone)
    · rename_i shown hshown
      obtain ⟨hname, htype⟩ := supplied_param h hshown
      have hrest : ∀ text, Supplied style.runtimeModule Used text →
          ∀ param ∈ some ("*" ++ shown ++ ": " ++ text), Supplied style.runtimeModule Used param := by
        rintro text htext _ ⟨⟩
        simp +decide [hname, htext]
      split
      · split
        · rename_i element
          exact (supplies_typeText hnames element htype).map hrest
        · exact (supplies_optionalTypeText hnames type htype).map hrest
      · split
        · rename_i type
          exact (supplies_typeText hnames type htype).bind fun text htext =>
            (supplies_typedParam hname optional htext).map fun param hparam => by simpa using hparam
        · exact (supplies_untypedParam hname optional).map fun param hparam => by simpa using hparam

theorem supplies_paramTexts (hnames : ∀ number, Supplied style.runtimeModule Used (style.typeName number))
    (position : Nat) (params : List Param)
    (h : ∀ text ∈ Param.allTexts params, Supplied style.runtimeModule Used text) :
    (paramTexts style position params).Supplies style Used fun texts =>
      ∀ text ∈ texts, Supplied style.runtimeModule Used text := by
  match params with
  | [] => exact .pure (List.forall_mem_nil _)
  | param :: others =>
    obtain ⟨hparam, hothers⟩ := List.forall_mem_append.mp h
    exact (supplies_paramText hnames position param hparam).bind fun text? htext =>
      (supplies_paramTexts hnames (position + 1) others hothers).map fun texts htexts =>
        List.forall_mem_append.mpr ⟨by simpa using htext, htexts⟩

theorem supplies_resultText (hnames : ∀ number, Supplied style.runtimeModule Used (style.typeName number))
    (type : Option TypeExpr) (h : ∀ text ∈ TypeExpr.resultTexts type, Supplied style.runtimeModule Used text) :
    (resultText style type).Supplies style Used fun result =>
      Supplied style.runtimeModule Used result.head ∧ Supplied style.runtimeModule Used result.type := by
  have hdef : Supplied style.runtimeModule Used "def" := by simp +decide
  have hasync : Supplied style.runtimeModule Used "async def" := by simp +decide
  unfold resultText
  split
  · rw [TypeExpr.resultTexts] at h
    split
    · exact (supplies_typing "Any").map fun text htext => ⟨hasync, htext⟩
    · next hpromise =>
      rw [if_neg hpromise] at h
      exact (supplies_referenceText h (.pure (List.forall_mem_nil _))).map fun text htext => ⟨hdef, htext⟩
  · rename_i name inner others
    rw [TypeExpr.resultTexts] at h
    split
    · next hpromise =>
      rw [if_pos hpromise] at h
      exact (supplies_typeText hnames inner h).map fun text htext => ⟨hasync, htext⟩
    · next hpromise =>
      rw [if_neg hpromise] at h
      obtain ⟨hname, harguments⟩ := List.forall_mem_append.mp h
      exact (supplies_referenceText hname (supplies_typeTexts hnames (inner :: others) harguments)).map
        fun text htext => ⟨hdef, htext⟩
  · rename_i type hnone hsome
    have htexts : TypeExpr.resultTexts (some type) = type.texts := by
      unfold TypeExpr.resultTexts
      split
      · next heq => exact (hnone _ (Option.some.inj heq)).elim
      · next heq => exact (hsome _ _ _ (Option.some.inj heq)).elim
      · next heq => rw [Option.some.inj heq]
      · next heq => cases heq
    exact (supplies_typeText hnames type (htexts ▸ h)).map fun text htext => ⟨hdef, htext⟩
  · exact (supplies_typing "Any").map fun text htext => ⟨hdef, htext⟩

theorem supplies_memberEntry (hnames : ∀ number, Supplied style.runtimeModule Used (style.typeName number))
    (separate : Bool) (member : Member) (h : ∀ text ∈ member.texts, Supplied style.runtimeModule Used text) :
    (memberEntry style separate member).Supplies style Used (SuppliedEntry style Used) := by
  have hseparator : SuppliedCode style.runtimeModule Used (separator separate) := by
    cases separate with
    | false => exact .nil
    | true => exact .blank 1
  match member with
  | .property (.other kind text) .. =>
    exact (supplies_reportName (h kind (by simp [Member.texts])) (h text (by simp [Member.texts]))).map
      fun code hcode => .plain hcode
  | .property (.ident name) type optional readonly static =>
    obtain ⟨hname, htype⟩ := List.forall_mem_append.mp h
    exact (supplies_optionalTypeText hnames type htype).bind fun text htext =>
      (supplies_optionalText optional htext).bind fun text htext =>
        (supplies_propertyCode hname readonly static htext).map fun code hcode =>
          ⟨hseparator, hcode, fun _ hnone => by cases hnone⟩
  | .method (.other kind text) .. =>
    exact (supplies_reportName (h kind (by simp [Member.texts])) (h text (by simp [Member.texts]))).map
      fun code hcode => .plain hcode
  | .method (.ident name) params result =>
    obtain ⟨hname, hrest⟩ := List.forall_mem_append.mp h
    obtain ⟨hparams, hresult⟩ := List.forall_mem_append.mp hrest
    refine (supplies_aliasLines hname).bind fun aliases haliases =>
      (supplies_paramTexts hnames 0 params hparams).bind fun texts htexts =>
        (supplies_resultText hnames result hresult).map fun result hresult => ?_
    have hemitted := hname (Recased.snake name).name (List.mem_cons_self ..)
    have hself : Supplied style.runtimeModule Used "self" := by simp +decide
    have hstub := supplied_stubLine hemitted (List.forall_mem_cons.mpr ⟨hself, htexts⟩) hresult.1 hresult.2
    exact ⟨hseparator, haliases.append hstub, fun _ hsome => by cases hsome; exact hemitted⟩
  | .constructor params =>
    refine (supplies_paramTexts hnames 0 params h).map fun texts htexts => ?_
    have hself : Supplied style.runtimeModule Used "self" := by simp +decide
    have hitems := supplied_commas (List.forall_mem_cons.mpr ⟨hself, htexts⟩)
    exact ⟨hseparator, .line (by simp +decide [hitems]), fun _ hsome => by cases hsome; simp +decide⟩
  | .unsupported kind => exact (Stubs.Supplies.report _ _).map fun _ _ => .plain .nil

theorem supplies_memberEntries (hnames : ∀ number, Supplied style.runtimeModule Used (style.typeName number))
    (separate : Bool) (members : List Member)
    (h : ∀ text ∈ Member.allTexts members, Supplied style.runtimeModule Used text) :
    (memberEntries style separate members).Supplies style Used fun entries =>
      ∀ entry ∈ entries, SuppliedEntry style Used entry := by
  match members with
  | [] => exact .pure (List.forall_mem_nil _)
  | member :: rest =>
    obtain ⟨hmember, hrest⟩ := List.forall_mem_append.mp h
    exact (supplies_memberEntry hnames separate member hmember).bind fun entry hentry =>
      (supplies_memberEntries hnames _ rest hrest).map fun entries hentries =>
        List.forall_mem_cons.mpr ⟨hentry, hentries⟩

end

/-! ### Statements -/

/-- The host symbols in the code of the parts are used. -/
def SuppliedParts (style : Style) (Used : Import → Prop) (parts : List Part) : Prop :=
  ∀ part ∈ parts, SuppliedEntry style Used part.toEntry

private theorem supplies_writeClass (hnames : ∀ number, Supplied style.runtimeModule Used (style.typeName number))
    (isInterface : Bool) (decl : ClassDecl) (h : ∀ text ∈ decl.texts, Supplied style.runtimeModule Used text) :
    (writeClass style isInterface decl).Supplies style Used (SuppliedParts style Used) := by
  obtain ⟨name, heritage, members⟩ := decl
  cases name with
  | other kind text => exact (Stubs.Supplies.report _ _).map fun _ _ => List.forall_mem_nil _
  | ident name =>
    obtain ⟨hname, hrest⟩ := List.forall_mem_append.mp h
    obtain ⟨hheritage, hmembers⟩ := List.forall_mem_append.mp hrest
    have hbases : (heritage.flatten.mapM fun (base : Base) => (do
        return referenceName base.name ++ argumentsText (← typeTexts style base.arguments) : Stubs String)).Supplies
          style Used fun texts => ∀ text ∈ texts, Supplied style.runtimeModule Used text := by
      refine Stubs.Supplies.mapM fun base hbase => ?_
      obtain ⟨hhead, harguments⟩ := List.forall_mem_cons.mp fun text htext =>
        hheritage text (List.mem_flatMap.mpr ⟨base, hbase, htext⟩)
      refine (supplies_typeTexts hnames base.arguments harguments).map fun texts htexts => ?_
      obtain ⟨hstart, htext⟩ := supplied_argumentsText htexts
      exact (supplied_append_right hstart).mpr ⟨hhead, htext⟩
    exact (supplies_classCode hname hbases (supplies_memberEntries hnames false members hmembers) isInterface _).map
      fun decl hdecl => List.forall_mem_singleton.mpr (.plain hdecl)

private theorem supplies_writeFunction (hnames : ∀ number, Supplied style.runtimeModule Used (style.typeName number))
    (name : Name) (params : List Param) (result : Option TypeExpr)
    (h : ∀ text ∈ (Statement.function name params result).texts, Supplied style.runtimeModule Used text) :
    (writeFunction style name params result).Supplies style Used (SuppliedParts style Used) := by
  cases name with
  | other kind text => exact (Stubs.Supplies.report _ _).map fun _ _ => List.forall_mem_nil _
  | ident name =>
    obtain ⟨hname, hrest⟩ := List.forall_mem_append.mp h
    obtain ⟨hparams, hresult⟩ := List.forall_mem_append.mp hrest
    refine (supplies_aliasLines hname).bind fun aliases haliases =>
      (supplies_paramTexts hnames 0 params hparams).bind fun texts htexts =>
        (supplies_resultText hnames result hresult).map fun result hresult => List.forall_mem_singleton.mpr ?_
    have hemitted := hname (Recased.snake name).name (List.mem_cons_self ..)
    exact ⟨.blank 2, haliases.append (supplied_stubLine hemitted htexts hresult.1 hresult.2),
      fun _ hsome => by cases hsome; exact hemitted⟩

private theorem supplies_enumeratorCode {member : EnumMember}
    (h : ∀ text ∈ member.texts, Supplied style.runtimeModule Used text) :
    (enumeratorCode member).Supplies style Used (SuppliedCode style.runtimeModule Used) := by
  obtain ⟨name, value⟩ := member
  cases name with
  | other kind text => exact supplies_reportName (h kind (List.mem_cons_self ..)) (h text (by simp [EnumMember.texts]))
  | ident name =>
    obtain ⟨hname, hvalue⟩ := List.forall_mem_cons.mp h
    have htext : (enumeratorValue value).Supplies style Used (Supplied style.runtimeModule Used) := by
      unfold enumeratorValue
      split
      · next text =>
        have htext := hvalue text (List.mem_singleton_self text)
        exact .pure (by simp +decide [htext])
      · next digits => exact .pure (hvalue digits (List.mem_singleton_self digits))
      · exact (Stubs.Supplies.use _).map fun _ hused =>
          supplied_symbol_append ⟨"enum", "auto"⟩ (by simp [importable]) hused
            (by decide : startsApart "()" = true) (by decide)
    exact htext.map fun text htext => .line (by simp +decide [hname, htext])

private theorem supplies_writeEnum {name : Name} {members : List EnumMember}
    (h : ∀ text ∈ (Statement.enum name members).texts, Supplied style.runtimeModule Used text) :
    (writeEnum name members).Supplies style Used (SuppliedParts style Used) := by
  cases name with
  | other kind text => exact (Stubs.Supplies.report _ _).map fun _ _ => List.forall_mem_nil _
  | ident name =>
    obtain ⟨hname, hmembers⟩ := List.forall_mem_cons.mp h
    have hcodes : ∀ member ∈ members, (enumeratorCode member).Supplies style Used
        (SuppliedCode style.runtimeModule Used) := fun member hmember =>
      supplies_enumeratorCode fun text htext => hmembers text (List.mem_flatMap.mpr ⟨member, hmember, htext⟩)
    refine (Stubs.Supplies.use _).bind fun _ hused => (Stubs.Supplies.mapM hcodes).map fun codes hcodes =>
      List.forall_mem_singleton.mpr (.plain ((SuppliedCode.blank 2).append (.suite ?_ ?_)))
    · have hopening : Supplied style.runtimeModule Used "(Enum" :=
        supplied_append_symbol ⟨"enum", "Enum"⟩ (by simp [importable]) hused
          (by decide : endsApart "(" = true) (by decide)
      have hbase : Supplied style.runtimeModule Used "(Enum):" :=
        (supplied_append_right (by decide : startsApart "):" = true)).mpr ⟨hopening, by simp +decide⟩
      simp +decide [hname, hbase]
    · refine (SuppliedCode.flatten hcodes).append ?_
      split
      · exact .nil
      · exact .line (by simp +decide)

private theorem supplies_writeVariable (hnames : ∀ number, Supplied style.runtimeModule Used (style.typeName number))
    (declared : Variable) (h : ∀ text ∈ declared.texts, Supplied style.runtimeModule Used text) :
    (writeVariable style declared).Supplies style Used (SuppliedParts style Used) := by
  obtain ⟨name, type⟩ := declared
  cases name with
  | other kind text => exact (Stubs.Supplies.report _ _).map fun _ _ => List.forall_mem_nil _
  | ident name =>
    obtain ⟨hname, htype⟩ := List.forall_mem_append.mp h
    refine (supplies_optionalTypeText hnames type htype).bind fun text htext =>
      (supplies_annotated hname htext).map fun text htext => List.forall_mem_singleton.mpr ?_
    have hemitted := hname (Recased.snake name).name (List.mem_cons_self ..)
    exact .plain ((SuppliedCode.blank 2).append (.line (by simp +decide [hemitted, htext])))

theorem supplies_statementParts (hnames : ∀ number, Supplied style.runtimeModule Used (style.typeName number))
    (statement : Statement) (h : ∀ text ∈ statement.texts, Supplied style.runtimeModule Used text) :
    (statementParts style statement).Supplies style Used (SuppliedParts style Used) := by
  cases statement with
  | classDecl decl => exact supplies_writeClass hnames false decl h
  | interface decl => exact supplies_writeClass hnames true decl h
  | function name params result => exact supplies_writeFunction hnames name params result h
  | typeAlias name type =>
    cases name with
    | other => exact (Stubs.Supplies.report _ _).map fun _ _ => List.forall_mem_nil _
    | ident name =>
      obtain ⟨hname, htype⟩ := List.forall_mem_cons.mp h
      refine (supplies_typeText hnames type htype).map fun text htext => List.forall_mem_singleton.mpr ?_
      exact .plain ((SuppliedCode.blank 2).append (.line (by simp +decide [hname, htext])))
  | enum name members => exact supplies_writeEnum h
  | variableDecls declared =>
    refine (Stubs.Supplies.mapM fun item hitem => supplies_writeVariable hnames item fun text htext =>
      h text (List.mem_flatMap.mpr ⟨item, hitem, htext⟩)).map fun results hresults part hpart => ?_
    obtain ⟨parts, hparts, hpart⟩ := List.mem_flatten.mp hpart
    exact hresults parts hparts part hpart
  | module => exact .pure (List.forall_mem_nil _)
  | unsupported kind => exact (Stubs.Supplies.report _ _).map fun _ _ => List.forall_mem_nil _

end Texts

end StubGen.DeclFile
