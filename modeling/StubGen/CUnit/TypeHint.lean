import StubGen.CUnit.Node
import StubGen.CUnit.Traced
import StubGen.HostType

/-!
# Type hints for C types

`typeHint` writes a C type as an annotation.  Scalars and pointers to characters or bytes have host types, other
pointers and arrays are lists, functions are callables, and a name that is in no table stands for itself.
-/

namespace StubGen.CUnit

/-- An annotation and the symbols it uses. -/
structure Hint where
  text : String
  uses : List Import
  deriving Inhabited

namespace Hint

/-- An annotation without imports. -/
def plain (text : String) : Hint := ⟨text, []⟩

def ofHostType (host : HostType) : Hint := ⟨host.name, host.source.toList⟩

/-- A symbol of the `typing` module. -/
def typing (symbol : String) : Hint := ofHostType (.typing symbol)

/-- The hint as a step of a generation, which it cannot make fail. -/
def toTraced (hint : Hint) : Traced String := ⟨hint.uses, .ok hint.text⟩

/-- A generic type with one argument. -/
def list (element : Hint) : Hint := ⟨"List[" ++ element.text ++ "]", element.uses ++ (typing "List").uses⟩

/-- A callable with parameters of any kind. -/
def anyCallable (result : Hint) : Hint :=
  ⟨"Callable[..., " ++ result.text ++ "]", result.uses ++ (typing "Callable").uses⟩

/-- A callable with these parameters. -/
def callable (params : List Hint) (result : Hint) : Hint :=
  ⟨"Callable[[" ++ ", ".intercalate (params.map text) ++ "], " ++ result.text ++ "]",
    result.uses ++ (typing "Callable").uses ++ params.flatMap uses⟩

end Hint

/-- The C spelling of a scalar type. -/
def spelling? : Node → Option String
  | .typeDecl _ type => spelling? type
  | .typename _ type => spelling? type
  | .identifierType names => some (" ".intercalate names)
  | _ => none

/-- Whether the parameters are the single `void` of a function without parameters. -/
def isVoidParams : List Node → Bool
  | [.typename _ type] => spelling? type = some "void"
  | _ => false

/-- The host type of a scalar; words that are in no table together are some integer type. -/
def scalarHint (names : List String) : Hint :=
  let spelling := " ".intercalate names
  match HostType.ofScalar? spelling with
  | some host => .ofHostType host
  | none => if 1 < names.length then .plain "int" else .plain spelling

/-- Whether the node is the mark of further parameters. -/
def isEllipsis : Node → Bool
  | .ellipsis => true
  | _ => false

/-- The annotation of a pointer to, or an array of, elements of a type that is annotated with `hint`.  A pointer to
a function is the function. -/
def elementsHint (element : Node) (hint : Hint) : Hint :=
  match element with
  | .functionType .. => hint
  | _ =>
    match (spelling? element).bind HostType.ofPointer? with
    | some host => .ofHostType host
    | none => hint.list

mutual

/-- The annotation of a C type. -/
def typeHint : Node → Hint
  | .typeDecl _ type => typeHint type
  | .typename _ type => typeHint type
  | .decl _ _ _ type _ _ => typeHint type
  | .identifierType names => scalarHint names
  | .struct name _ => name.elim (.typing "Any") .plain
  | .union name _ => name.elim (.typing "Any") .plain
  | .enum name _ => .plain (name.getD "int")
  | .pointer target => elementsHint target (typeHint target)
  | .array element _ => elementsHint element (typeHint element)
  | .functionType (some (.paramList params)) result =>
    if isVoidParams params then .callable [] (typeHint result)
    else if params.any isEllipsis then .anyCallable (typeHint result)
    else .callable (typeHints params) (typeHint result)
  | .functionType _ result => .callable [] (typeHint result)
  | _ => .typing "Any"
termination_by structural type => type

/-- The annotations of a list of types. -/
def typeHints : List Node → List Hint
  | [] => []
  | type :: rest => typeHint type :: typeHints rest
termination_by structural types => types

end

end StubGen.CUnit
