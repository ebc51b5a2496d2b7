import StubGen.Proofs.Stub.Aliases
import StubGen.Proofs.Stub.Naming

/-!
# Names of types that clash

The types that are defined on the way are named by numbers, and declared types by casing; nothing keeps the two apart.
A name with a number is defined once more for each declared type that is emitted under it.

* `Declaration.typeName?` is the name under which a declared type is emitted.
* `Declaration.DefinedBy` is the part of the body that shows a declaration and defines its type.
* `count_typeNames` counts the definitions.  A stem that begins with a small letter of ASCII rules clashes out, since
  no declared type is emitted under such a name.
-/

namespace StubGen

/-- No type is emitted under a name that begins with a small letter of ASCII. -/
theorem Recased.head_name_pascal (name : String) :
    ∀ c ∈ (Recased.pascal name).name.toList.head?, isAsciiLower c = false := by
  intro c hc
  have hname : (Recased.pascal name).name = escapeName (pascalCase name) := rfl
  rw [hname] at hc
  have hchars : (pascalCase name).toList = pascalChars name.toList := String.toList_ofList
  by_cases hmem : pascalCase name ∈ reservedWords
  · rw [escapeName_of_mem hmem, String.toList_append] at hc
    refine head_pascalChars name.toList c ?_
    rw [← hchars]
    cases hempty : (pascalCase name).toList with
    | nil =>
      rw [String.toList_eq_nil_iff.mp hempty] at hmem
      exact absurd hmem (by decide)
    | cons first rest =>
      rw [hempty] at hc
      exact hc
  · rw [escapeName_of_notMem hmem, hchars] at hc
    exact head_pascalChars name.toList c hc

namespace DeclFile

/-- The name under which the type of a declaration is emitted. -/
def Declaration.typeName? : Declaration → Option String
  | .type name _ => some (Recased.pascal name).name
  | .enum name => some (Recased.pascal name).name
  | .typeAlias name => some (Recased.pascal name).name
  | .function _ => none
  | .variable _ => none

/-- The part of the body shows the declaration, and defines its type. -/
def Declaration.DefinedBy (declaration : Declaration) (part : Part) : Prop :=
  declaration.ShownBy part ∧ ∀ name ∈ declaration.typeName?, ∃ bases, DefinesType name bases part

/-! ### Declared types -/

section Statements

variable (style : Style)

private theorem Stubs.Ensures.and {α : Type} {Defines : Block → Prop} {Yields Others : α → Prop} {piece : Stubs α}
    (h : piece.Ensures Defines Yields) (h' : piece.Ensures Defines Others) :
    piece.Ensures Defines fun value => Yields value ∧ Others value :=
  fun count => ⟨(h count).1, (h count).2, (h' count).2⟩

/-- A statement that declares one type becomes one part that defines it. -/
private theorem definedBy_of_declaresType {name : String} {bases : List Base} {statement : Statement}
    {declaration : Declaration} (h : DeclaresType name bases statement)
    (hdeclares : statement.declarations = [declaration])
    (hname : declaration.typeName? = some (Recased.pascal name).name) :
    (statementParts style statement).Ensures (fun _ => True)
      (List.Forall₂ Declaration.DefinedBy statement.declarations) := by
  refine ((shownBy_statementParts style statement).and (definesType_statementParts h)).mono ?_
  rintro parts ⟨hshown, part, rfl, hdefines⟩
  rw [hdeclares] at hshown ⊢
  refine .cons ⟨(List.forall₂_cons.mp hshown).1, fun emitted hemitted => ⟨bases, ?_⟩⟩ .nil
  rw [hname] at hemitted
  cases hemitted
  exact hdefines

/-- A statement without types shows its declarations. -/
private theorem definedBy_of_typeless {statement : Statement}
    (h : ∀ declaration ∈ statement.declarations, declaration.typeName? = none) :
    (statementParts style statement).Ensures (fun _ => True)
      (List.Forall₂ Declaration.DefinedBy statement.declarations) := by
  refine (shownBy_statementParts style statement).mono fun parts hshown => ?_
  generalize statement.declarations = declarations at h hshown
  induction hshown with
  | nil => exact .nil
  | @cons declaration part declarations parts hfirst _ ih =>
    obtain ⟨hnone, hrest⟩ := List.forall_mem_cons.mp h
    refine .cons ⟨hfirst, fun name hname => ?_⟩ (ih hrest)
    rw [hnone] at hname
    cases hname

private theorem definedBy_statementParts (statement : Statement) :
    (statementParts style statement).Ensures (fun _ => True)
      (List.Forall₂ Declaration.DefinedBy statement.declarations) := by
  cases statement with
  | classDecl decl =>
    obtain ⟨name, heritage, members⟩ := decl
    cases name with
    | ident name => exact definedBy_of_declaresType style (.classDecl heritage members) rfl rfl
    | other => exact definedBy_of_typeless style nofun
  | interface decl =>
    obtain ⟨name, heritage, members⟩ := decl
    cases name with
    | ident name => exact definedBy_of_declaresType style (.interface heritage members) rfl rfl
    | other => exact definedBy_of_typeless style nofun
  | typeAlias name type =>
    cases name with
    | ident name => exact definedBy_of_declaresType style (.typeAlias type) rfl rfl
    | other => exact definedBy_of_typeless style nofun
  | enum name members =>
    cases name with
    | ident name => exact definedBy_of_declaresType style (.enum members) rfl rfl
    | other => exact definedBy_of_typeless style nofun
  | function name params result =>
    refine definedBy_of_typeless style fun declaration hdeclaration => ?_
    obtain ⟨name, -, rfl⟩ := List.mem_map.mp hdeclaration
    rfl
  | variableDecls declared =>
    refine definedBy_of_typeless style fun declaration hdeclaration => ?_
    obtain ⟨item, -, hdeclaration⟩ := List.mem_flatMap.mp hdeclaration
    obtain ⟨name, -, rfl⟩ := List.mem_map.mp hdeclaration
    rfl
  | module => exact definedBy_of_typeless style nofun
  | unsupported => exact definedBy_of_typeless style nofun

private theorem definedBy_fileParts (statements : List Statement) :
    (fileParts style statements).Ensures (fun _ => True)
      (List.Forall₂ Declaration.DefinedBy (statements.flatMap Statement.declarations)) :=
  (Stubs.Ensures.mapM fun statement _ => definedBy_statementParts style statement).bind fun _ hresults =>
    (Stubs.Ensures.useDispatch _ _).bind fun _ _ => .pure (forall₂_flatMap hresults)

end Statements

/-! ### Clashes -/

/-- The names under which the types of a file are emitted. -/
def declaredTypes (statements : List Statement) : List String :=
  (statements.flatMap Statement.declarations).filterMap Declaration.typeName?

private theorem isAsciiLower_of_mem_declaredTypes {statements : List Statement} {name : String}
    (h : name ∈ declaredTypes statements) : ∀ c ∈ name.toList.head?, isAsciiLower c = false := by
  obtain ⟨declaration, -, hname⟩ := List.mem_filterMap.mp h
  cases declaration with
  | type declared =>
    cases hname
    exact Recased.head_name_pascal declared
  | enum declared =>
    cases hname
    exact Recased.head_name_pascal declared
  | typeAlias declared =>
    cases hname
    exact Recased.head_name_pascal declared
  | function => cases hname
  | «variable» => cases hname

/-- The types that have no name are called by the stem and the numbers from 1 on, and each is defined once for itself
and once for each declared type that is emitted under its name.  There is none of these if the stem begins with a small
letter of ASCII. -/
theorem count_typeNames (options : DeclOptions) (statements : List Statement) :
    let log := (fileParts (.ofOptions options) statements 0).1
    let parts := (fileParts (.ofOptions options) statements 0).2
    let nameOf := fun number : Nat => options.typeStem ++ toString number
    (generate options statements).text = (document options log parts).render ∧
      (∀ block ∈ log.blocks, block.IsNamed (nameOf block.number)) ∧
      (numbers log.blocks).Perm (List.range' 1 log.blocks.length) ∧
      List.Forall₂ Declaration.DefinedBy (statements.flatMap Statement.declarations) parts ∧
      (∀ number ∈ numbers log.blocks,
        ((numbers log.blocks).map nameOf ++ declaredTypes statements).count (nameOf number) =
          1 + (declaredTypes statements).count (nameOf number)) ∧
      (options.typeStem.toList.head?.any isAsciiLower = true →
        ∀ number : Nat, nameOf number ∉ declaredTypes statements) := by
  intro log parts nameOf
  have hnumbers : (numbers log.blocks).Perm (List.range' 1 log.blocks.length) :=
    (hereditary_numbers _).fileParts (fun _ _ => .refl _) statements 0
  have hnodup : ((numbers log.blocks).map nameOf).Nodup :=
    (hnumbers.nodup_iff.mpr List.nodup_range').map fun _ _ => eq_of_append_toString
  refine ⟨congrArg Generated.text (generate_eq options statements),
    ((hereditary_isNamed _).fileParts (fun _ => .use _) statements 0).1, hnumbers,
    (definedBy_fileParts _ statements 0).2, fun number hnumber => ?_, fun hstem number hmem => ?_⟩
  · rw [List.count_append, List.count_eq_one_of_mem hnodup (List.mem_map_of_mem hnumber)]
  · obtain ⟨c, hc, hlower⟩ := (Option.any_eq_true _ _).mp hstem
    have hhead : c ∈ (nameOf number).toList.head? := by
      obtain ⟨rest, hrest⟩ := List.head?_eq_some_iff.mp hc
      simp [nameOf, hrest]
    rw [isAsciiLower_of_mem_declaredTypes hmem c hhead] at hlower
    cases hlower

/-- `interface Anon1 { }` and `declare const x: { }` -/
def anonFile : List Statement := [
  .interface ⟨.ident "Anon1", [], []⟩,
  .variableDecls [⟨.ident "x", some (.members [])⟩]]

theorem notMem_declaredTypes_anonFile :
    "anon".toList.head?.any isAsciiLower = true ∧ declaredTypes anonFile = ["Anon1"] ∧
      "anon1" ∉ declaredTypes anonFile := by
  have hlower : "anon".toList.head?.any isAsciiLower = true := by decide
  have hclash := (count_typeNames { typeStem := "anon" } anonFile).2.2.2.2.2 hlower
  exact ⟨hlower, by decide +kernel, hclash 1⟩

/-- `interface Type1 { }` and `declare const x: { }` -/
def clashingFile : List Statement := [
  .interface ⟨.ident "Type1", [], []⟩,
  .variableDecls [⟨.ident "x", some (.members [])⟩]]

/-- The interface and the type of the variable are two classes of one name. -/
theorem clash_clashingFile :
    (∃ block ∈ (fileParts (.ofOptions {}) clashingFile 0).1.blocks, block.IsNamed "Type1") ∧
      "Type1" ∈ declaredTypes clashingFile ∧
      (generate {} clashingFile).text = "\n".intercalate [
        "from bindport.runtime import external", "from typing import Protocol", "", "",
        "@external", "class Type1(Protocol):", "    ...", "", "",
        "@external", "class Type1(Protocol):", "    ...", "", "",
        "x: Type1", ""] := by
  refine ⟨⟨_, List.mem_singleton_self _, by rfl, by rfl⟩, by decide +kernel, by decide +kernel⟩

end DeclFile

end StubGen
