import StubGen.Layout.Imports

/-!
# Types of the output

A `HostType` is a type name together with the import it needs.  The tables give the host type of scalar types, of
pointers to some of them, of keyword types and of well-known generic types; any other name passes through.
-/

namespace StubGen

/-- A type name and the symbol it takes from a module. -/
structure HostType where
  name : String
  source : Option Import
  deriving DecidableEq, Repr

namespace HostType

/-- A type that needs no import. -/
def builtin (name : String) : HostType := ⟨name, none⟩

/-- A symbol of the `typing` module. -/
def typing (name : String) : HostType := ⟨name, some ⟨"typing", name⟩⟩

/-- The spellings of integer types. -/
def integerSpellings : List String := [
  "int", "signed", "signed int", "unsigned", "unsigned int", "short", "short int", "unsigned short",
  "unsigned short int", "long", "long int", "unsigned long", "unsigned long int", "long long", "long long int",
  "unsigned long long", "unsigned long long int", "unsigned char", "int8_t", "int16_t", "int32_t", "int64_t",
  "uint8_t", "uint16_t", "uint32_t", "uint64_t", "size_t", "ssize_t", "Py_ssize_t", "intptr_t", "uintptr_t",
  "ptrdiff_t"]

/-- The host type of a scalar C type, by its spelling. -/
def ofScalar? (spelling : String) : Option HostType :=
  if spelling = "void" then some (builtin "None")
  else if spelling ∈ ["_Bool", "bool"] then some (builtin "bool")
  else if spelling ∈ ["char", "signed char"] then some (builtin "str")
  else if spelling ∈ ["float", "double", "long double"] then some (builtin "float")
  else if spelling ∈ integerSpellings then some (builtin "int")
  else none

/-- The host type of a pointer to, or an array of, a scalar C type; none where it is a list of the elements. -/
def ofPointer? (element : String) : Option HostType :=
  if element ∈ ["char", "signed char"] then some (builtin "str")
  else if element ∈ ["uint8_t", "unsigned char"] then some (builtin "bytes")
  else if element = "void" then some (typing "Any")
  else none

/-- The host type of a well-known generic type of TypeScript. -/
def ofReference? (name : String) : Option HostType :=
  if name ∈ ["Promise", "PromiseLike"] then some (typing "Awaitable")
  else if name ∈ ["Map", "Record", "WeakMap"] then some (typing "Dict")
  else if name = "ReadonlyMap" then some (typing "Mapping")
  else if name ∈ ["Set", "WeakSet"] then some (typing "Set")
  else if name = "Array" then some (typing "List")
  else if name = "ReadonlyArray" then some (typing "Sequence")
  else if name ∈ ["Iterable", "IterableIterator", "AsyncIterable"] then some (typing "Iterable")
  else if name = "Iterator" then some (typing "Iterator")
  else if name ∈ ["This", "this"] then some (typing "Self")
  else if name = "Function" then some (typing "Callable")
  else if name = "Object" then some (builtin "object")
  else none

end HostType

/-- The keyword types of TypeScript. -/
inductive Keyword where
  | void
  | any
  | unknown
  | boolean
  | number
  | bigInt
  | string
  | symbol
  | object
  | never
  | null
  | undefined
  | true
  | false
  deriving DecidableEq, Repr, Inhabited

namespace Keyword

/-- All keyword types. -/
def all : List Keyword := [
  .void, .any, .unknown, .boolean, .number, .bigInt, .string, .symbol, .object, .never, .null, .undefined, .true,
  .false]

/-- The name of a keyword type in a dump, without the ending that all of them share. -/
def name : Keyword → String
  | void => "Void"
  | any => "Any"
  | unknown => "Unknown"
  | boolean => "Boolean"
  | number => "Number"
  | bigInt => "BigInt"
  | string => "String"
  | symbol => "Symbol"
  | object => "Object"
  | never => "Never"
  | null => "Null"
  | undefined => "Undefined"
  | true => "True"
  | false => "False"

/-- The host type of a keyword type. -/
def hostType : Keyword → HostType
  | void | null | undefined => .builtin "None"
  | any | unknown => .typing "Any"
  | boolean => .builtin "bool"
  | number | bigInt => .builtin "int"
  | string => .builtin "str"
  | symbol | object => .builtin "object"
  | never => .typing "NoReturn"
  | true => .builtin "True"
  | false => .builtin "False"

end Keyword

end StubGen
