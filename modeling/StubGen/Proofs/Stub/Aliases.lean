import StubGen.Proofs.Stub.Overload
import StubGen.Proofs.Stub.References

/-!
# Declared names in the output

Where casing or escaping changes a name, the output tells the declared name beside the emitted one: a decorator does
so for a class, a function and an accessor, and an annotation for a binding.

* `Recased.Tells` says that a name as the output has it gives the declared name.
* `Member.ShownBy` and `Declaration.ShownBy` say what the code of a declaration is like, with what tells its name.
* `Stubs.Ensures` carries this through the generator, up to the file (`generate_shown`).  Enumerations alone are under
  their emitted name only, which does not give the declared one (`enum_untold`).
-/

namespace StubGen

/-- The emitted name is the declared one, or the declared one goes with it. -/
def Recased.Tells (recased : Recased) (name : String) : Prop :=
  recased.declared = none ∧ recased.name = name ∨ recased.declared = some name

theorem Recased.tells_ofConverted (declared converted : String) : (ofConverted declared converted).Tells declared := by
  rw [Tells, declared_eq_none_iff, and_self]
  by_cases h : (ofConverted declared converted).name = declared
  · exact Or.inl h
  · exact Or.inr (if_neg h)

namespace DeclFile

/-- The decorators that tell the declared name. -/
def aliasCode (recased : Recased) : List Code :=
  recased.declared.toList.map fun declared => .line ("@" ++ aliasText declared)

/-- The type of a binding that tells the declared name. -/
def annotatedType (recased : Recased) (type : String) : String :=
  match recased.declared with
  | some declared => "Annotated[" ++ type ++ ", " ++ aliasText declared ++ "]"
  | none => type

/-- A binding without a value. -/
def bindingLine (recased : Recased) (type : String) : Code :=
  .line (recased.name ++ ": " ++ annotatedType recased type)

/-- The accessor that reads a property. -/
def getterLines (recased : Recased) (type : String) : List Code :=
  .line "@property" :: aliasCode recased ++
    [.suite ("def " ++ recased.name ++ "(self) -> " ++ type ++ ":") [.line "raise NotImplementedError"]]

/-- The accessor that sets a property. -/
def setterLines (recased : Recased) (type : String) : List Code :=
  .blank 1 :: .line ("@" ++ recased.name ++ ".setter") :: aliasCode recased ++
    [.line ("def " ++ recased.name ++ "(self, value: " ++ type ++ ") -> None: ...")]

/-- The binding or the accessors of a property. -/
def propertyLines (recased : Recased) (readonly static : Bool) (type : String) : List Code :=
  if static then [bindingLine recased type]
  else if readonly then getterLines recased type
  else getterLines recased type ++ setterLines recased type

/-- The code of a member tells the member's name, if that is an identifier. -/
def Member.ShownBy (entry : Entry) : Member → Prop
  | .property (.ident name) _ _ readonly static => ∃ recased type, recased.Tells name ∧
      entry.code = propertyLines recased readonly static type
  | .method (.ident name) .. => ∃ recased params result, recased.Tells name ∧
      entry.code = aliasCode recased ++ [stubLine recased.name params result]
  | _ => True

/-- The scope of a class shows members, one after the other, and may end in a line that stands for none. -/
def MembersShown (members : List Member) (scope : List Entry) : Prop :=
  ∃ entries, List.Forall₂ (fun member entry => member.ShownBy entry) members entries ∧
    (scope = entries ∨ scope = entries ++ [.plain [.line "..."]])

/-- A declaration whose name is an identifier. -/
inductive Declaration where
  /-- A class or an interface. -/
  | type (name : String) (members : List Member)
  | enum (name : String)
  | function (name : String)
  | typeAlias (name : String)
  | «variable» (name : String)

def Variable.declarations (declared : Variable) : List Declaration :=
  declared.name.ident?.toList.map Declaration.variable

/-- The declarations of a statement. -/
def Statement.declarations : Statement → List Declaration
  | .classDecl decl => decl.name.ident?.toList.map fun name => .type name decl.members
  | .interface decl => decl.name.ident?.toList.map fun name => .type name decl.members
  | .function name .. => name.ident?.toList.map .function
  | .typeAlias name _ => name.ident?.toList.map .typeAlias
  | .enum name _ => name.ident?.toList.map .enum
  | .variableDecls declared => declared.flatMap Variable.declarations
  | _ => []

/-- The part of the body is the code of a declaration, with what tells the declared name.  Type aliases and
enumerations have their emitted name only. -/
inductive Declaration.ShownBy : Declaration → Part → Prop
  | type {name : String} {members : List Member} {recased : Recased} {bases : List String} {decl : ClassCode} :
      recased.Tells name → decl.aliases = aliasCode recased → IsHeader recased.name bases decl.header →
      MembersShown members decl.members → ShownBy (.type name members) (.scope decl)
  | enum (name : String) (body : List Code) : ShownBy (.enum name)
      (.entry (.plain [.blank 2, .suite ("class " ++ (Recased.pascal name).name ++ "(Enum):") body]))
  | function {name : String} {recased : Recased} (params : List String) (result : Result) : recased.Tells name →
      ShownBy (.function name) (.entry ⟨some recased.name, [.blank 2],
        aliasCode recased ++ [stubLine recased.name params result]⟩)
  | typeAlias (name text : String) : ShownBy (.typeAlias name)
      (.entry (.plain [.blank 2, .line ((Recased.pascal name).name ++ " = " ++ text)]))
  | «variable» {name : String} {recased : Recased} (type : String) : recased.Tells name →
      ShownBy (.variable name) (.entry (.plain [.blank 2, bindingLine recased type]))

/-! ### Members -/

section Members

variable (style : Style)

private theorem eq_aliasCode (recased : Recased) :
    (aliasLines style recased).Ensures (fun _ => True) (· = aliasCode recased) := by
  unfold aliasLines
  cases h : recased.declared with
  | none => exact .pure (by rw [aliasCode, h]; rfl)
  | some declared => exact (Stubs.Ensures.use _).map fun _ _ => by rw [aliasCode, h]; rfl

private theorem eq_bindingLine (recased : Recased) (type : String) :
    Stubs.Ensures (fun _ => True) (fun text => Code.line (recased.name ++ ": " ++ text) = bindingLine recased type)
      (annotated style recased type) := by
  unfold annotated
  cases h : recased.declared with
  | none => exact .pure (by rw [bindingLine, annotatedType, h])
  | some declared =>
    refine (Stubs.Ensures.use _).bind fun _ _ => (eq_typing "Annotated").map fun text htext => ?_
    rw [bindingLine, annotatedType, h, htext]
    rfl

private theorem eq_propertyLines (recased : Recased) (readonly static : Bool) (type : String) :
    (propertyCode style recased readonly static type).Ensures (fun _ => True)
      (· = propertyLines recased readonly static type) := by
  have hgetter : (getterCode style recased type).Ensures (fun _ => True) (· = getterLines recased type) :=
    (eq_aliasCode style recased).map fun aliases haliases => by rw [haliases, getterLines]
  have hsetter : (setterCode style recased type).Ensures (fun _ => True) (· = setterLines recased type) :=
    (eq_aliasCode style recased).map fun aliases haliases => by rw [haliases, setterLines]
  unfold propertyCode propertyLines
  split
  · exact (eq_bindingLine style recased type).map fun text htext => by rw [htext]
  · split
    · exact hgetter
    · exact hgetter.bind fun getter hread => hsetter.map fun setter hset => by rw [hread, hset]

/-- A member is shown together with what tells its name. -/
theorem shownBy_memberEntry (separate : Bool) (member : Member) :
    (memberEntry style separate member).Ensures (fun _ => True) fun entry => member.ShownBy entry := by
  cases member with
  | property name type optional readonly static =>
    cases name with
    | other kind text => exact (Stubs.Ensures.trivial _).mono fun _ _ => trivial
    | ident name =>
      refine (Stubs.Ensures.trivial _).bind fun _ _ => (Stubs.Ensures.trivial _).bind fun type _ => ?_
      exact (eq_propertyLines style (.snake name) readonly static type).map fun code hcode =>
        ⟨.snake name, type, Recased.tells_ofConverted name _, hcode⟩
  | method name params result =>
    cases name with
    | other kind text => exact (Stubs.Ensures.trivial _).mono fun _ _ => trivial
    | ident name =>
      refine (eq_aliasCode style (.snake name)).bind fun aliases haliases => ?_
      refine (Stubs.Ensures.trivial _).bind fun texts _ => (Stubs.Ensures.trivial _).map fun result _ => ?_
      exact ⟨.snake name, "self" :: texts, result, Recased.tells_ofConverted name _, by rw [haliases]⟩
  | constructor params => exact (Stubs.Ensures.trivial _).mono fun _ _ => trivial
  | unsupported kind => exact (Stubs.Ensures.trivial _).mono fun _ _ => trivial

private theorem shownBy_memberEntries (separate : Bool) (members : List Member) :
    (memberEntries style separate members).Ensures (fun _ => True)
      (List.Forall₂ (fun member entry => member.ShownBy entry) members) := by
  induction members generalizing separate with
  | nil => exact .pure .nil
  | cons member rest ih =>
    exact (shownBy_memberEntry style separate member).bind fun entry hentry =>
      (ih _).map fun entries hentries => .cons hentry hentries

/-- A class tells its own name and those of its members. -/
private theorem shown_classCode (recased : Recased) (bases : Stubs (List String)) (isInterface isEmpty : Bool)
    (members : List Member) :
    (classCode style recased bases isInterface (memberEntries style false members) isEmpty).Ensures (fun _ => True)
      fun decl => decl.aliases = aliasCode recased ∧ (∃ texts, IsHeader recased.name texts decl.header) ∧
        MembersShown members decl.members := by
  refine (Stubs.Ensures.use _).bind fun _ _ => (eq_aliasCode style recased).bind fun aliases haliases => ?_
  refine (Stubs.Ensures.trivial bases).bind fun texts _ => ?_
  refine (isHeader_classHeader recased.name texts isInterface).bind fun header hheader => ?_
  refine (shownBy_memberEntries style false members).bind fun entries hentries => ?_
  refine (Stubs.Ensures.useDispatch _ _).bind fun _ _ => .pure ⟨haliases, ⟨texts, hheader⟩, entries, hentries, ?_⟩
  -- a class without members of its own has a line in their place
  cases isEmpty with
  | false => exact Or.inl (List.append_nil entries)
  | true => exact Or.inr rfl

/-- The definition of a type without a name shows the members of the type. -/
theorem Block.IsTypeOf.membersShown {style : Style} {members : List Member} {block : Block}
    (h : block.IsTypeOf style members) : MembersShown members block.decl.members := by
  rw [h]
  exact (shown_classCode style _ _ true _ members block.number).2.2.2

end Members

/-! ### Statements -/

section Statements

variable (style : Style)

private theorem shownBy_writeClass (isInterface : Bool) (decl : ClassDecl) :
    (writeClass style isInterface decl).Ensures (fun _ => True)
      (List.Forall₂ Declaration.ShownBy (decl.name.ident?.toList.map fun name => .type name decl.members)) := by
  obtain ⟨name, heritage, members⟩ := decl
  cases name with
  | other kind text => exact (Stubs.Ensures.trivial _).bind fun _ _ => .pure .nil
  | ident name =>
    refine (shown_classCode style (.pascal name) _ isInterface _ members).map fun code hcode => ?_
    obtain ⟨haliases, ⟨bases, hheader⟩, hmembers⟩ := hcode
    exact .cons (.type (Recased.tells_ofConverted name _) haliases hheader hmembers) .nil

private theorem shownBy_writeVariable (declared : Variable) :
    (writeVariable style declared).Ensures (fun _ => True)
      (List.Forall₂ Declaration.ShownBy declared.declarations) := by
  obtain ⟨name, type⟩ := declared
  cases name with
  | other kind text => exact (Stubs.Ensures.trivial _).bind fun _ _ => .pure .nil
  | ident name =>
    refine (Stubs.Ensures.trivial _).bind fun type _ => (eq_bindingLine style (.snake name) type).map
      fun text htext => ?_
    rw [htext]
    exact .cons (.variable type (Recased.tells_ofConverted name _)) .nil

theorem forall₂_flatMap {α β γ : Type} {Relates : β → γ → Prop} {f : α → List β} {items : List α}
    {results : List (List γ)}
    (h : List.Forall₂ (fun item result => List.Forall₂ Relates (f item) result) items results) :
    List.Forall₂ Relates (items.flatMap f) results.flatten := by
  induction h with
  | nil => exact .nil
  | cons hfirst _ ih =>
    rw [List.flatMap_cons, List.flatten_cons]
    exact List.rel_append hfirst ih

/-- The parts of a statement show its declarations, in order. -/
theorem shownBy_statementParts (statement : Statement) : (statementParts style statement).Ensures (fun _ => True)
    (List.Forall₂ Declaration.ShownBy statement.declarations) := by
  cases statement with
  | classDecl decl => exact shownBy_writeClass style false decl
  | interface decl => exact shownBy_writeClass style true decl
  | function name params result =>
    cases name with
    | other kind text => exact (Stubs.Ensures.trivial _).bind fun _ _ => .pure .nil
    | ident name =>
      refine (eq_aliasCode style (.snake name)).bind fun aliases haliases => ?_
      refine (Stubs.Ensures.trivial _).bind fun texts _ => (Stubs.Ensures.trivial _).map fun result _ => ?_
      rw [haliases]
      exact .cons (.function texts result (Recased.tells_ofConverted name _)) .nil
  | typeAlias name type =>
    cases name with
    | other kind text => exact (Stubs.Ensures.trivial _).bind fun _ _ => .pure .nil
    | ident name => exact (Stubs.Ensures.trivial _).map fun text _ => .cons (.typeAlias name text) .nil
  | enum name members =>
    cases name with
    | other kind text => exact (Stubs.Ensures.trivial _).bind fun _ _ => .pure .nil
    | ident name =>
      exact (Stubs.Ensures.use _).bind fun _ _ => (Stubs.Ensures.trivial _).map fun _ _ => .cons (.enum name _) .nil
  | variableDecls declared =>
    exact (Stubs.Ensures.mapM fun item _ => shownBy_writeVariable style item).map fun _ hresults =>
      forall₂_flatMap hresults
  | module => exact .pure .nil
  | unsupported kind => exact (Stubs.Ensures.report _ _).bind fun _ _ => .pure .nil

private theorem shownBy_fileParts (statements : List Statement) :
    (fileParts style statements).Ensures (fun _ => True)
      (List.Forall₂ Declaration.ShownBy (statements.flatMap Statement.declarations)) :=
  (Stubs.Ensures.mapM fun statement _ => shownBy_statementParts style statement).bind fun _ hresults =>
    (Stubs.Ensures.useDispatch _ _).bind fun _ _ => .pure (forall₂_flatMap hresults)

end Statements

/-- The body of a file shows the declarations of the file, and the types that are defined ahead of it show the members
that they are made of.  What is cased anew or escaped tells its declared name, unless it is an enumeration or an
alias. -/
theorem generate_shown (options : DeclOptions) (statements : List Statement) :
    let style := Style.ofOptions options
    let log := (fileParts style statements 0).1
    let parts := (fileParts style statements 0).2
    (generate options statements).text = (document options log parts).render ∧
      List.Forall₂ Declaration.ShownBy (statements.flatMap Statement.declarations) parts ∧
      ∀ block ∈ log.blocks, ∃ members, block.IsTypeOf style members ∧ MembersShown members block.decl.members := by
  intro style log parts
  have hparts := (shownBy_fileParts style statements 0).2
  have hblocks := ((hereditary_isTypeOf style).fileParts (fun _ => .use _) statements 0).1
  refine ⟨congrArg Generated.text (generate_eq options statements), hparts, fun block hblock => ?_⟩
  obtain ⟨members, hmembers⟩ := hblocks block hblock
  exact ⟨members, hmembers, hmembers.membersShown⟩

/-- Two enumerations whose names differ have one output, and nowhere in it is the name of the first one. -/
theorem enum_untold : (generate {} [.enum (.ident "foo_bar") []]).text =
      "\n".intercalate ["from enum import Enum", "", "", "class FooBar(Enum):", "    ...", ""] ∧
    (generate {} [.enum (.ident "fooBar") []]).text = (generate {} [.enum (.ident "foo_bar") []]).text ∧
    ¬"foo_bar".toList <:+: (generate {} [.enum (.ident "foo_bar") []]).text.toList := by
  have htext : (generate {} [.enum (.ident "foo_bar") []]).text =
      "\n".intercalate ["from enum import Enum", "", "", "class FooBar(Enum):", "    ...", ""] := by decide +kernel
  have hother : (generate {} [.enum (.ident "fooBar") []]).text =
      "\n".intercalate ["from enum import Enum", "", "", "class FooBar(Enum):", "    ...", ""] := by decide +kernel
  rw [htext, hother]
  exact ⟨rfl, rfl, by decide +kernel⟩

end DeclFile

end StubGen
