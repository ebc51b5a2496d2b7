import StubGen.CUnit.Context
import StubGen.CUnit.Counting
import StubGen.Layout.Code
import StubGen.Options

/-!
# Declarations

Enumerations become classes of constants or plain constants, structures and unions become classes of annotated
fields, and variables become assignments or annotations.  A type that is defined inside a declaration is written
ahead of it.

* `writeEnum` numbers the enumerators that have no value.
* `writeDecl`, `writeTypedef` and `writeSignature` write declarations, type definitions and the heads of functions.
-/

namespace StubGen.CUnit

/-- Fails at a node that has no place here. -/
def unexpected {α : Type} (node : Node) (place : String) : Traced α := .fail (.unexpected node.kind place)

/-- A class.  At the left margin two empty lines precede it. -/
def classCode (context : Context) (header : String) (body : List Code) : List Code :=
  (if context.role.isModuleScope then [.blank 2] else []) ++ [.suite header (Code.orPass body)]

/-- The name and the value of an enumerator, where the value is known. -/
structure Enumerated where
  name : String
  value : Option Int

/-- The text and the value of an enumerator without a value of its own: one more than the one before it. -/
def nextEnumerated : Option Enumerated → String × Option Int
  | none => ("0", some 0)
  | some previous =>
    match previous.value.bind fun value => int64? (value + 1) with
    | some value => (toString value, some value)
    | none => (previous.name ++ " + 1", none)

/-- The constants of an enumeration, after the enumerator `previous`. -/
def writeEnumerators (reduce : Bool) (previous : Option Enumerated) : List Node → Traced (List Code)
  | [] => pure []
  | .enumerator name value :: rest => do
    let member := escapeName name
    let (text, number) ←
      match value with
      | some value => do pure (← renderExpr reduce value, value.intValue?)
      | none => pure (nextEnumerated previous)
    return .line (member ++ " = " ++ text) :: (← writeEnumerators reduce (some ⟨member, number⟩) rest)
  | other :: _ => unexpected other "enumerator list"

/-- An enumeration: a class if it has a name, and else constants. -/
def writeEnum (reduce : Bool) (context : Context) (name : Option String) (values : Node) : Traced (List Code) :=
  match values with
  | .enumeratorList enumerators =>
    match name with
    | some name => do
      Traced.use ⟨"enum", "IntEnum"⟩
      let body ← writeEnumerators reduce none enumerators
      return classCode context ("class " ++ escapeName name ++ "(IntEnum):") body
    | none => writeEnumerators reduce none enumerators
  | other => unexpected other "enum"

/-- The annotated fields of a structure or union; members without a name are left out. -/
def fieldHints : List Node → List (String × Hint)
  | [] => []
  | .decl (some name) _ _ type _ _ :: rest => (escapeName name, typeHint type) :: fieldHints rest
  | _ :: rest => fieldHints rest

/-- A structure or union, if it has a name and members and such classes are wanted. -/
def writeAggregate (options : UnitOptions) (context : Context) (name : Option String) (members : Option (List Node)) :
    Traced (List Code) :=
  match name, members with
  | some name, some members =>
    if options.emitAggregates then do
      let body ← (fieldHints members).mapM fun (field, hint) => do
        return Code.line (field ++ ": " ++ (← hint.toTraced))
      return classCode context ("class " ++ escapeName name ++ ":") body
    else pure []
  | _, _ => pure []

/-- The definitions of types inside a type. -/
def writeInnerDefinitions (options : UnitOptions) (context : Context) : Node → Traced (List Code)
  | .typeDecl _ type => writeInnerDefinitions options context type
  | .pointer target => writeInnerDefinitions options context target
  | .array element _ => writeInnerDefinitions options context element
  | .enum name (some values) => writeEnum options.reduceParentheses context name values
  | .struct name (some members) => writeAggregate options context name (some members)
  | .union name (some members) => writeAggregate options context name (some members)
  | _ => pure []
termination_by structural type => type

/-- A variable with an initial value. -/
def writeInitialized (options : UnitOptions) (target : String) (type init : Node) : Traced (List Code) := do
  let value ← renderExpr options.reduceParentheses init
  if options.annotateDeclarations then
    return [.line (target ++ ": " ++ (← (typeHint type).toTraced) ++ " = " ++ value)]
  else return [.line (target ++ " = " ++ value)]

/-- A variable without an initial value.  In a body it leaves no trace, or holds `None`. -/
def writeUninitialized (options : UnitOptions) (context : Context) (target : String) (type : Node) :
    Traced (List Code) :=
  if context.role = .body then
    if !options.keepEmptyDeclarations then pure []
    else if options.annotateDeclarations then do
      return [.line (target ++ ": " ++ (← (typeHint type).toTraced) ++ " | None = None")]
    else pure [.line (target ++ " = None")]
  else do return [.line (target ++ ": " ++ (← (typeHint type).toTraced))]

/-- A declaration.  Prototypes leave no trace, and declarations without a name only the type that they define. -/
def writeDecl (options : UnitOptions) (context : Context) : Node → Traced (List Code)
  | .decl _ _ _ (.functionType ..) _ _ => pure []
  | .decl none _ _ (.enum name (some values)) _ _ => writeEnum options.reduceParentheses context name values
  | .decl none _ _ (.struct name members) _ _ => writeAggregate options context name members
  | .decl none _ _ (.union name members) _ _ => writeAggregate options context name members
  | .decl none _ _ _ _ _ => pure []
  | .decl (some name) _ _ type init _ => do
    let inner ← writeInnerDefinitions options context type
    let line ←
      match init with
      | some init => writeInitialized options (escapeName name) type init
      | none => writeUninitialized options context (escapeName name) type
    return inner ++ line
  | other => unexpected other "declaration"

/-- The declarations of a list, in order. -/
def writeDecls (options : UnitOptions) (context : Context) (decls : List Node) : Traced (List Code) := do
  return (← decls.mapM (writeDecl options context)).flatten

/-- The type that a type definition names. -/
def definedType : Node → Node
  | .typeDecl _ type => type
  | type => type

/-- A type definition.  It names the enumeration, structure or union that it defines, and any other type is an
alias. -/
def writeTypedef (options : UnitOptions) (context : Context) (name : String) (type : Node) : Traced (List Code) :=
  match definedType type with
  | .enum _ (some values) => writeEnum options.reduceParentheses context (some name) values
  | .struct _ (some members) => writeAggregate options context (some name) (some members)
  | .union _ (some members) => writeAggregate options context (some name) (some members)
  | _ =>
    if options.emitAggregates then do return [.line (escapeName name ++ " = " ++ (← (typeHint type).toTraced))]
    else pure []

/-- The parameters of a function; none for a lone `void`. -/
def paramsOf : Option Node → List Node
  | some (.paramList params) => if isVoidParams params then [] else params
  | _ => []

/-- The definitions of types inside the parameters of a function. -/
def writeParamDefinitions (options : UnitOptions) (context : Context) : Option Node → Traced (List Code)
  | some (.paramList params) => do
    let inner ← params.mapM fun param =>
      match param with
      | .decl _ _ _ type _ _ => writeInnerDefinitions options context type
      | _ => pure []
    return inner.flatten
  | _ => pure []

/-- A parameter at a position, which names it if it has no name. -/
def paramText (hints : Bool) (position : Nat) (param : Node) : Traced String :=
  match param with
  | .ellipsis => pure "*args"
  | .decl (some name) _ _ type _ _ =>
    if hints then do return escapeName name ++ ": " ++ (← (typeHint type).toTraced) else pure (escapeName name)
  | other =>
    if hints then do return "arg" ++ toString position ++ ": " ++ (← (typeHint other).toTraced)
    else pure ("arg" ++ toString position)

/-- The parameters from a position on. -/
def paramTexts (hints : Bool) (position : Nat) : List Node → Traced (List String)
  | [] => pure []
  | param :: rest => do return (← paramText hints position param) :: (← paramTexts hints (position + 1) rest)

/-- The head of a function. -/
def signatureHead (options : UnitOptions) (name : String) (args : Option Node) (result : Node) : Traced String := do
  let params ← paramTexts options.typeHints 0 (paramsOf args)
  let ending ← if options.typeHints then do pure (" -> " ++ (← (typeHint result).toTraced)) else pure ""
  return "def " ++ escapeName name ++ "(" ++ ", ".intercalate params ++ ")" ++ ending ++ ":"

/-- The head of a function, and the code ahead of it. -/
def writeSignature (options : UnitOptions) (context : Context) : Node → Traced (List Code × String)
  | .decl (some name) _ _ (.functionType args result) _ _ => do
    let resultTypes ← writeInnerDefinitions options (context.withRole .signature) result
    let paramTypes ← writeParamDefinitions options (context.withRole .params) args
    return (resultTypes ++ paramTypes ++ [.blank 2], ← signatureHead options name args result)
  | .decl (some _) _ _ type _ _ => unexpected type "function signature"
  | other => unexpected other "function definition"

end StubGen.CUnit
