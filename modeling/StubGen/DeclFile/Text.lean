import StubGen.DeclFile.Stubs
import StubGen.DeclFile.Syntax
import StubGen.Name.Casing
import StubGen.Options

/-!
# Texts of stubs

The parts of a stub's lines that do not depend on other types.  They use symbols and report what has no form in the
output, and define no types.

* `Style` is what the options say about stubs.
* `annotated` and `classHeader` write what stands around types, and `literalText` and `referenceHead` the types that
  have no others in them.
-/

namespace StubGen.DeclFile

/-- What stubs are written with: the module that provides the decorators, and the names of the types that are defined
on the way, by number. -/
structure Style where
  runtimeModule : String
  typeName : Nat → String

/-- The style that options ask for. -/
def Style.ofOptions (options : DeclOptions) : Style :=
  ⟨options.runtimeModule, fun number => options.typeStem ++ toString number⟩

/-- Uses the import of a host type. -/
def hostText (host : HostType) : Stubs String := do
  match host.source with
  | some symbol => Stubs.use symbol
  | none => pure ()
  return host.name

/-- A symbol of the `typing` module. -/
def typing (symbol : String) : Stubs String := hostText (.typing symbol)

/-- Uses a decorator of the runtime. -/
def useRuntime (style : Style) (symbol : String) : Stubs Unit := Stubs.use ⟨style.runtimeModule, symbol⟩

/-- The text that tells the declared name. -/
def aliasText (declared : String) : String := "alias('" ++ declared ++ "')"

/-- The type of a binding, which tells the declared name where it is not the emitted one. -/
def annotated (style : Style) (recased : Recased) (type : String) : Stubs String := do
  match recased.declared with
  | some declared => do
    useRuntime style "alias"
    return (← typing "Annotated") ++ "[" ++ type ++ ", " ++ aliasText declared ++ "]"
  | none => return type

/-- The name of a type in a reference: what follows the last dot is cased like a declared type. -/
def referenceName (name : String) : String :=
  let chars := name.toList
  let last := (chars.reverse.takeWhile (· ≠ '.')).reverse
  let qualifier := chars.take (chars.length - last.length)
  String.ofList (qualifier ++ pascalChars last)

/-- Type arguments in brackets. -/
def argumentsText (arguments : List String) : String :=
  if arguments.isEmpty then "" else "[" ++ ", ".intercalate arguments ++ "]"

/-- The annotation of a literal. -/
def literalText : Literal → Stubs String
  | .null => return "None"
  | .unsupported kind => do
    Stubs.report kind "unsupported literal type"
    typing "Any"
  | .text value => do return (← typing "Literal") ++ "['" ++ value ++ "']"
  | .number digits => do return (← typing "Literal") ++ "[" ++ digits ++ "]"
  | .bool value => do return (← typing "Literal") ++ (if value then "[True]" else "[False]")

/-- A type that may be absent at run time. -/
def optionalText (optional : Bool) (type : String) : Stubs String := do
  if optional then return (← typing "Optional") ++ "[" ++ type ++ "]" else return type

/-- The header of a class.  An interface without bases is a protocol. -/
def classHeader (name : String) (bases : List String) (isInterface : Bool) : Stubs String := do
  if !bases.isEmpty then return "class " ++ name ++ "(" ++ ", ".intercalate bases ++ "):"
  else if isInterface then return "class " ++ name ++ "(" ++ (← typing "Protocol") ++ "):"
  else return "class " ++ name ++ ":"

/-- The text of a parameter with its type. -/
def typedParam (name : String) (optional : Bool) (type : String) : Stubs String := do
  if optional then return name ++ ": " ++ (← optionalText true type) ++ " = None" else return name ++ ": " ++ type

/-- The text of a parameter without a type. -/
def untypedParam (name : String) (optional : Bool) : Stubs String := do
  if optional then typedParam name true (← typing "Any") else return name

/-- The name of a parameter at a position; `this` is none. -/
def paramName? (position : Nat) : Name → Option String
  | .ident name => if name = "this" then none else some (Recased.snake name).name
  | .other .. => some ("arg" ++ toString position)

/-- The keyword that begins a function's definition, and its result type. -/
structure Result where
  head : String
  type : String

/-- The line of a function's stub. -/
def stubText (name : String) (params : List String) (result : Result) : String :=
  result.head ++ " " ++ name ++ "(" ++ ", ".intercalate params ++ ") -> " ++ result.type ++ ": ..."

/-- The name of a type in an annotation. -/
def referenceHead (name : String) : Stubs String :=
  match HostType.ofReference? name with
  | some host => hostText host
  | none => return referenceName name

/-- The value of an enumerator; one without a literal value gets the next free one. -/
def enumeratorValue : Option Literal → Stubs String
  | some (.text value) => return "'" ++ value ++ "'"
  | some (.number digits) => return digits
  | _ => do
    Stubs.use ⟨"enum", "auto"⟩
    return "auto()"

end StubGen.DeclFile
