import Mathlib.Data.List.Forall2
import StubGen.DeclFile.Module

/-!
# What holds of all that is generated

A property of pieces is `Closed` if the generator's means keep it: yielding a value, doing one piece after another,
using a symbol and reporting a node.  It is `Hereditary` if it also passes from members to the type that they define,
and then it holds of all that is written for types and members, whatever they are.

* `Stubs.Ensures` speaks of the types that a piece defines and of the value that it yields.
* `Hereditary.typeText` and `Hereditary.memberEntries` follow the generator through types and members.
* `Closed.writeEnum`, `Hereditary.writeVariable` and their like do so for the parts of statements.
-/

namespace StubGen.DeclFile

/-- Wherever the piece stands, the types that it defines have the one property and its value has the other. -/
def Stubs.Ensures {α : Type} (Defines : Block → Prop) (Yields : α → Prop) (piece : Stubs α) : Prop :=
  ∀ count, (∀ block ∈ (piece count).1.blocks, Defines block) ∧ Yields (piece count).2

namespace Stubs.Ensures

variable {α β : Type} {Defines : Block → Prop} {Yields : α → Prop} {Results : β → Prop}

theorem pure {value : α} (h : Yields value) : Ensures Defines Yields (pure value) :=
  fun _ => ⟨by simp [pure_apply, Log.empty], h⟩

theorem bind {first : Stubs α} {next : α → Stubs β} (hfirst : Ensures Defines Yields first)
    (hnext : ∀ value, Yields value → Ensures Defines Results (next value)) :
    Ensures Defines Results (first >>= next) := by
  intro count
  obtain ⟨hblocks, hvalue⟩ := hfirst count
  obtain ⟨hmore, hresult⟩ := hnext _ hvalue (count + (first count).1.blocks.length)
  rw [bind_apply]
  exact ⟨List.forall_mem_append.mpr ⟨hblocks, hmore⟩, hresult⟩

theorem map {first : Stubs α} (hfirst : Ensures Defines Yields first) {f : α → β}
    (hf : ∀ value, Yields value → Results (f value)) : Ensures Defines Results (do return f (← first)) :=
  hfirst.bind fun value hvalue => .pure (hf value hvalue)

theorem mono {Others : α → Prop} {piece : Stubs α} (h : Ensures Defines Yields piece)
    (hvalues : ∀ value, Yields value → Others value) : Ensures Defines Others piece :=
  fun count => ⟨(h count).1, hvalues _ (h count).2⟩

theorem trivial (piece : Stubs α) : Ensures (fun _ => True) (fun _ => True) piece :=
  fun _ => ⟨fun _ _ => True.intro, True.intro⟩

theorem use (symbol : Import) : Ensures Defines (fun _ => True) (Stubs.use symbol) :=
  fun _ => ⟨by simp [Stubs.use], True.intro⟩

theorem report (kind message : String) : Ensures Defines (fun _ => True) (Stubs.report kind message) :=
  fun _ => ⟨by simp [Stubs.report], True.intro⟩

theorem mapM {f : α → Stubs β} {Relates : α → β → Prop} {items : List α}
    (h : ∀ item ∈ items, Ensures Defines (Relates item) (f item)) :
    Ensures Defines (List.Forall₂ Relates items) (items.mapM f) := by
  induction items with
  | nil => exact .pure .nil
  | cons item rest ih =>
    obtain ⟨hitem, hrest⟩ := List.forall_mem_cons.mp h
    rw [List.mapM_cons]
    exact hitem.bind fun result hresult => (ih hrest).map fun results hresults => .cons hresult hresults

theorem forall_mapM {f : α → Stubs β} {items : List α} (h : ∀ item ∈ items, Ensures Defines Results (f item)) :
    Ensures Defines (fun results => ∀ result ∈ results, Results result) (items.mapM f) := by
  induction items with
  | nil => exact .pure (by simp)
  | cons item rest ih =>
    obtain ⟨hitem, hrest⟩ := List.forall_mem_cons.mp h
    rw [List.mapM_cons]
    exact hitem.bind fun result hresult => (ih hrest).map fun results hresults =>
      List.forall_mem_cons.mpr ⟨hresult, hresults⟩

theorem useDispatch (dispatch : String) (entries : List Entry) :
    Ensures Defines (fun _ => True) (useDispatch dispatch entries) := by
  unfold DeclFile.useDispatch
  split
  · exact use _
  · exact pure True.intro

end Stubs.Ensures

/-- The symbols of the `typing` module that annotations and bases are written with. -/
def typingSymbols : List String := [
  "Annotated", "Any", "Awaitable", "Callable", "Dict", "Iterable", "Iterator", "List", "Literal", "Mapping", "NoReturn",
  "Optional", "Protocol", "Self", "Sequence", "Set", "Tuple", "Type"]

/-- The symbols that the generator uses in the text, and not for overloads. -/
def Style.symbols (style : Style) : List Import :=
  typingSymbols.map (Import.mk "typing") ++ ["Enum", "auto"].map (Import.mk "enum") ++
    ["external", "alias"].map (Import.mk style.runtimeModule)

/-- The means of the generator keep the property. -/
structure Closed (style : Style) (P : {α : Type} → Stubs α → Prop) : Prop where
  pure : ∀ {α : Type} (value : α), P (pure value : Stubs α)
  bind : ∀ {α β : Type} {first : Stubs α} {next : α → Stubs β}, P first → (∀ value, P (next value)) → P (first >>= next)
  use : ∀ symbol ∈ style.symbols, P (Stubs.use symbol)
  report : ∀ kind message : String, P (Stubs.report kind message)

/-- The property passes from members to the type that they define, too. -/
structure Hereditary (style : Style) (P : {α : Type} → Stubs α → Prop) : Prop extends Closed style P where
  define : ∀ members : List Member, P (memberEntries style false members) → P (typeText style (.members members))

/-- What the types that are defined have in common. -/
theorem closed_ensures (style : Style) (Defines : Block → Prop) :
    Closed style fun piece => piece.Ensures Defines fun _ => True where
  pure _ := .pure trivial
  bind hfirst hnext := hfirst.bind fun value _ => hnext value
  use _ _ := .use _
  report := .report

/-- The host types of keyword types and of well-known generic types. -/
def knownHosts : List HostType :=
  ["None", "bool", "int", "str", "object", "True", "False"].map HostType.builtin ++ typingSymbols.map HostType.typing

theorem hostType_mem_knownHosts (keyword : Keyword) : keyword.hostType ∈ knownHosts := by
  cases keyword <;> decide

private theorem mem_knownHosts_of_ite {p : Prop} [Decidable p] {known host : HostType} {other : Option HostType}
    (hknown : known ∈ knownHosts) (hother : other = some host → host ∈ knownHosts) :
    (if p then some known else other) = some host → host ∈ knownHosts := by
  intro h
  split at h
  · cases h
    exact hknown
  · exact hother h

theorem mem_knownHosts_of_ofReference? {name : String} {host : HostType} (h : HostType.ofReference? name = some host) :
    host ∈ knownHosts := by
  unfold HostType.ofReference? at h
  revert h
  -- one row of the table after the other
  iterate 11 refine mem_knownHosts_of_ite (by decide) ?_
  exact nofun

/-- Host types take symbols of the `typing` module only. -/
theorem source_of_mem_knownHosts {host : HostType} (h : host ∈ knownHosts) :
    ∀ symbol ∈ host.source, symbol ∈ typingSymbols.map (Import.mk "typing") := by
  intro symbol hsymbol
  rcases List.mem_append.mp h with h | h
  · obtain ⟨name, -, rfl⟩ := List.mem_map.mp h
    cases hsymbol
  · obtain ⟨name, hname, rfl⟩ := List.mem_map.mp h
    cases hsymbol
    exact List.mem_map_of_mem hname

namespace Closed

variable {style : Style} {P : {α : Type} → Stubs α → Prop}

/-! ### Texts -/

theorem map {α β : Type} (h : Closed style P) {first : Stubs α} (hfirst : P first) (f : α → β) :
    P (do return f (← first)) := h.bind hfirst fun _ => h.pure _

theorem hostText (h : Closed style P) {host : HostType}
    (hhost : ∀ symbol ∈ host.source, symbol ∈ typingSymbols.map (Import.mk "typing")) : P (DeclFile.hostText host) := by
  unfold DeclFile.hostText
  cases hsource : host.source with
  | none => exact h.bind (h.pure ()) fun _ => h.pure _
  | some symbol =>
    have hsymbol : symbol ∈ style.symbols := List.mem_append_left _ (List.mem_append_left _ (hhost symbol hsource))
    exact h.bind (h.use symbol hsymbol) fun _ => h.pure _

theorem typing (h : Closed style P) (symbol : String) (hsymbol : symbol ∈ typingSymbols := by decide) :
    P (DeclFile.typing symbol) :=
  h.hostText fun _ hfound => by cases hfound; exact List.mem_map_of_mem hsymbol

/-- The symbols for the classes of enumerations. -/
theorem useEnum (h : Closed style P) {symbol : String} (hsymbol : symbol ∈ ["Enum", "auto"]) :
    P (Stubs.use ⟨"enum", symbol⟩) :=
  h.use _ (List.mem_append_left _ (List.mem_append_right _ (List.mem_map_of_mem hsymbol)))

theorem useRuntime (h : Closed style P) {symbol : String} (hsymbol : symbol ∈ ["external", "alias"]) :
    P (DeclFile.useRuntime style symbol) := h.use _ (List.mem_append_right _ (List.mem_map_of_mem hsymbol))

theorem aliasLines (h : Closed style P) (recased : Recased) : P (DeclFile.aliasLines style recased) := by
  unfold DeclFile.aliasLines
  split
  · exact h.bind (h.useRuntime (by decide)) fun _ => h.pure _
  · exact h.pure _

theorem annotated (h : Closed style P) (recased : Recased) (type : String) :
    P (DeclFile.annotated style recased type) := by
  unfold DeclFile.annotated
  split
  · exact h.bind (h.useRuntime (by decide)) fun _ => h.map (h.typing _) _
  · exact h.pure _

theorem literalText (h : Closed style P) (literal : Literal) : P (DeclFile.literalText literal) := by
  cases literal with
  | null => exact h.pure _
  | unsupported kind => exact h.bind (h.report _ _) fun _ => h.typing _
  | text | number | bool => exact h.map (h.typing _) _

theorem reportName (h : Closed style P) (kind text : String) : P (DeclFile.reportName kind text) :=
  h.bind (h.report _ _) fun _ => h.pure _

theorem optionalText (h : Closed style P) (optional : Bool) (type : String) :
    P (DeclFile.optionalText optional type) := by
  unfold DeclFile.optionalText
  split
  · exact h.map (h.typing _) _
  · exact h.pure _

theorem propertyCode (h : Closed style P) (recased : Recased) (readonly static : Bool) (type : String) :
    P (DeclFile.propertyCode style recased readonly static type) := by
  have hgetter : P (getterCode style recased type) := h.map (h.aliasLines recased) _
  unfold DeclFile.propertyCode
  split
  · exact h.map (h.annotated recased type) _
  · split
    · exact hgetter
    · exact h.bind hgetter fun _ => h.map (h.map (h.aliasLines recased) _) _

theorem classHeader (h : Closed style P) (name : String) (bases : List String) (isInterface : Bool) :
    P (DeclFile.classHeader name bases isInterface) := by
  unfold DeclFile.classHeader
  split
  · exact h.pure _
  · split
    · exact h.map (h.typing _) _
    · exact h.pure _

theorem typedParam (h : Closed style P) (name : String) (optional : Bool) (type : String) :
    P (DeclFile.typedParam name optional type) := by
  unfold DeclFile.typedParam
  split
  · exact h.map (h.optionalText true type) _
  · exact h.pure _

theorem untypedParam (h : Closed style P) (name : String) (optional : Bool) :
    P (DeclFile.untypedParam name optional) := by
  unfold DeclFile.untypedParam
  split
  · exact h.bind (h.typing _) fun type => h.typedParam name true type
  · exact h.pure _

theorem referenceHead (h : Closed style P) (name : String) : P (DeclFile.referenceHead name) := by
  unfold DeclFile.referenceHead
  split
  · rename_i host hhost
    exact h.hostText (source_of_mem_knownHosts (mem_knownHosts_of_ofReference? hhost))
  · exact h.pure _

theorem referenceText (h : Closed style P) (name : String) {arguments : Stubs (List String)}
    (harguments : P arguments) : P (DeclFile.referenceText name arguments) :=
  h.bind (h.referenceHead name) fun _ => h.map harguments _

theorem mapM {α β : Type} (h : Closed style P) {f : α → Stubs β} (items : List α)
    (hf : ∀ item ∈ items, P (f item)) : P (items.mapM f) := by
  induction items with
  | nil => exact h.pure _
  | cons item rest ih =>
    rw [List.mapM_cons]
    exact h.bind (hf item (List.mem_cons_self ..)) fun _ =>
      h.bind (ih fun other hother => hf other (List.mem_cons_of_mem item hother)) fun _ => h.pure _

theorem enumeratorValue (h : Closed style P) (value : Option Literal) : P (DeclFile.enumeratorValue value) := by
  have hauto : P (do Stubs.use ⟨"enum", "auto"⟩; return "auto()") :=
    h.bind (h.useEnum (by decide)) fun _ => h.pure _
  unfold DeclFile.enumeratorValue
  split
  · exact h.pure _
  · exact h.pure _
  · exact hauto

theorem enumeratorCode (h : Closed style P) (member : EnumMember) : P (DeclFile.enumeratorCode member) := by
  unfold DeclFile.enumeratorCode
  split
  · exact h.reportName _ _
  · exact h.map (h.enumeratorValue _) _

theorem writeEnum (h : Closed style P) (name : Name) (members : List EnumMember) :
    P (DeclFile.writeEnum name members) := by
  cases name with
  | other => exact h.bind (h.report _ _) fun _ => h.pure _
  | ident name =>
    exact h.bind (h.useEnum (by decide)) fun _ => h.map (h.mapM members fun member _ => h.enumeratorCode member) _

/-- What no use breaks holds of the dispatchers of scopes, too. -/
theorem useDispatch (h : Closed style P) (huse : ∀ symbol, P (Stubs.use symbol)) (dispatch : String)
    (entries : List Entry) : P (DeclFile.useDispatch dispatch entries) := by
  unfold DeclFile.useDispatch
  split
  · exact huse _
  · exact h.pure _

theorem classCode (h : Closed style P) (huse : ∀ symbol, P (Stubs.use symbol)) (recased : Recased)
    {bases : Stubs (List String)} (hbases : P bases) {members : Stubs (List Entry)} (hmembers : P members)
    (isInterface isEmpty : Bool) : P (DeclFile.classCode style recased bases isInterface members isEmpty) :=
  h.bind (huse _) fun _ => h.bind (h.aliasLines recased) fun _ => h.bind hbases fun texts =>
    h.bind (h.classHeader recased.name texts isInterface) fun _ => h.bind hmembers fun _ =>
      h.bind (h.useDispatch huse _ _) fun _ => h.pure _

end Closed

namespace Hereditary

variable {style : Style} {P : {α : Type} → Stubs α → Prop}

/-! ### Types and members -/

mutual

theorem typeText (h : Hereditary style P) (type : TypeExpr) : P (DeclFile.typeText style type) := by
  match type with
  | .keyword keyword => exact h.hostText (source_of_mem_knownHosts (hostType_mem_knownHosts keyword))
  | .parenthesized inner => exact h.typeText inner
  | .function params result =>
    refine h.bind (h.optionalTypeText result) fun _ => h.bind (h.typing _) fun _ => ?_
    split
    · exact h.pure _
    · exact h.map (h.paramTypes params) _
  | .union items => exact h.map (h.typeTexts items) _
  | .intersection [] => exact h.typing _
  | .intersection (first :: _) => exact h.typeText first
  | .array element => exact h.bind (h.typeText element) fun _ => h.map (h.typing _) _
  | .tuple items =>
    refine h.bind (h.typing _) fun _ => ?_
    split
    · exact h.pure _
    · exact h.map (h.typeTexts items) _
  | .literal value => exact h.literalText value
  | .query name => exact h.map (h.typing _) _
  | .members members => exact h.define members (h.memberEntries false members)
  | .reference name arguments => exact h.referenceText name (h.typeTexts arguments)
  | .operator operator operand =>
    rw [DeclFile.typeText]
    split
    · exact h.pure _
    · exact h.typeText operand
  | .indexedAccess => exact h.bind (h.report _ _) fun _ => h.typing _
  | .unsupported kind => exact h.bind (h.report _ _) fun _ => h.typing _

theorem typeTexts (h : Hereditary style P) (types : List TypeExpr) : P (DeclFile.typeTexts style types) := by
  match types with
  | [] => exact h.pure _
  | type :: rest => exact h.bind (h.typeText type) fun _ => h.map (h.typeTexts rest) _

theorem optionalTypeText (h : Hereditary style P) (type : Option TypeExpr) :
    P (DeclFile.optionalTypeText style type) := by
  match type with
  | some type => exact h.typeText type
  | none => exact h.typing _

theorem paramTypes (h : Hereditary style P) (params : List Param) : P (DeclFile.paramTypes style params) := by
  match params with
  | [] => exact h.pure _
  | .mk _ type optional _ :: rest =>
    exact h.bind (h.optionalTypeText type) fun _ => h.bind (h.optionalText optional _) fun _ =>
      h.map (h.paramTypes rest) _

theorem paramText (h : Hereditary style P) (position : Nat) (param : Param) :
    P (DeclFile.paramText style position param) := by
  match param with
  | .mk name type optional rest =>
    rw [DeclFile.paramText]
    split
    · exact h.pure _
    · split
      · split
        · rename_i element
          exact h.map (h.typeText element) _
        · exact h.map (h.optionalTypeText type) _
      · split
        · rename_i type
          exact h.bind (h.typeText type) fun text => h.map (h.typedParam _ optional text) _
        · exact h.map (h.untypedParam _ optional) _

theorem paramTexts (h : Hereditary style P) (position : Nat) (params : List Param) :
    P (DeclFile.paramTexts style position params) := by
  match params with
  | [] => exact h.pure _
  | param :: others =>
    exact h.bind (h.paramText position param) fun _ => h.map (h.paramTexts (position + 1) others) _

theorem resultText (h : Hereditary style P) (type : Option TypeExpr) : P (DeclFile.resultText style type) := by
  unfold DeclFile.resultText
  split
  · split
    · exact h.map (h.typing _) _
    · exact h.map (h.referenceText _ (h.pure _)) _
  · rename_i name inner others
    split
    · exact h.map (h.typeText inner) _
    · exact h.map (h.referenceText name (h.typeTexts (inner :: others))) _
  · rename_i type _ _
    exact h.map (h.typeText type) _
  · exact h.map (h.typing _) _

theorem memberEntry (h : Hereditary style P) (separate : Bool) (member : Member) :
    P (DeclFile.memberEntry style separate member) := by
  match member with
  | .property (.other kind text) .. => exact h.map (h.reportName kind text) _
  | .property (.ident name) type optional readonly static =>
    exact h.bind (h.optionalTypeText type) fun _ => h.bind (h.optionalText optional _) fun type =>
      h.map (h.propertyCode (.snake name) readonly static type) _
  | .method (.other kind text) .. => exact h.map (h.reportName kind text) _
  | .method (.ident name) params result =>
    exact h.bind (h.aliasLines _) fun _ => h.bind (h.paramTexts 0 params) fun _ => h.map (h.resultText result) _
  | .constructor params => exact h.map (h.paramTexts 0 params) _
  | .unsupported kind => exact h.bind (h.report _ _) fun _ => h.pure _

theorem memberEntries (h : Hereditary style P) (separate : Bool) (members : List Member) :
    P (DeclFile.memberEntries style separate members) := by
  match members with
  | [] => exact h.pure _
  | member :: rest => exact h.bind (h.memberEntry separate member) fun _ => h.map (h.memberEntries _ rest) _

end

/-! ### Statements -/

theorem bases (h : Hereditary style P) (heritage : List (List Base)) : P (heritage.flatten.mapM fun base => do
    return referenceName base.name ++ argumentsText (← DeclFile.typeTexts style base.arguments)) :=
  h.mapM _ fun base _ => h.map (h.typeTexts base.arguments) _

theorem writeFunction (h : Hereditary style P) (name : Name) (params : List Param) (result : Option TypeExpr) :
    P (DeclFile.writeFunction style name params result) := by
  cases name with
  | other => exact h.bind (h.report _ _) fun _ => h.pure _
  | ident name =>
    exact h.bind (h.aliasLines _) fun _ => h.bind (h.paramTexts 0 params) fun _ => h.map (h.resultText result) _

theorem writeTypeAlias (h : Hereditary style P) (name : Name) (type : TypeExpr) :
    P (DeclFile.writeTypeAlias style name type) := by
  cases name with
  | other => exact h.bind (h.report _ _) fun _ => h.pure _
  | ident name => exact h.map (h.typeText type) _

theorem writeVariable (h : Hereditary style P) (declared : Variable) : P (DeclFile.writeVariable style declared) := by
  unfold DeclFile.writeVariable
  split
  · exact h.bind (h.report _ _) fun _ => h.pure _
  · exact h.bind (h.optionalTypeText declared.type) fun _ => h.map (h.annotated _ _) _

theorem writeClass (h : Hereditary style P) (huse : ∀ symbol, P (Stubs.use symbol)) (isInterface : Bool)
    (decl : ClassDecl) : P (DeclFile.writeClass style isInterface decl) := by
  obtain ⟨name, heritage, members⟩ := decl
  cases name with
  | other => exact h.bind (h.report _ _) fun _ => h.pure _
  | ident name =>
    exact h.map (h.classCode huse (.pascal name) (h.bases heritage) (h.memberEntries false members) isInterface _) _

theorem statementParts (h : Hereditary style P) (huse : ∀ symbol, P (Stubs.use symbol)) (statement : Statement) :
    P (DeclFile.statementParts style statement) := by
  cases statement with
  | classDecl decl => exact h.writeClass huse false decl
  | interface decl => exact h.writeClass huse true decl
  | function name params result => exact h.writeFunction name params result
  | typeAlias name type => exact h.writeTypeAlias name type
  | enum name members => exact h.writeEnum name members
  | variableDecls declared => exact h.map (h.mapM declared fun item _ => h.writeVariable item) _
  | module => exact h.pure _
  | unsupported kind => exact h.bind (h.report _ _) fun _ => h.pure _

/-- What no use breaks holds of a file. -/
theorem fileParts (h : Hereditary style P) (huse : ∀ symbol, P (Stubs.use symbol)) (statements : List Statement) :
    P (DeclFile.fileParts style statements) :=
  h.bind (h.mapM statements fun statement _ => h.statementParts huse statement) fun _ =>
    h.bind (h.useDispatch huse _ _) fun _ => h.pure _

end Hereditary

end StubGen.DeclFile
