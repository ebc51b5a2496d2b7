import StubGen.DeclFile.Text

/-!
# Outlines of stubs

The code of stubs as a tree, in which the declarations of a scope carry their names and overloads are decorated in
place.  It has the lines that the generator emits one by one.

* `typeText` writes a type, and `memberEntry` a member of a class.  A type without a name becomes a class in the log.
-/

namespace StubGen.DeclFile

/-- The decorator that tells the declared name, where it is not the emitted one. -/
def aliasLines (style : Style) (recased : Recased) : Stubs (List Code) := do
  match recased.declared with
  | some declared => do
    useRuntime style "alias"
    return [.line ("@" ++ aliasText declared)]
  | none => return []

/-- A report on a member whose name is no identifier. -/
def reportName (kind text : String) : Stubs (List Code) := do
  Stubs.report kind ("unsupported member name `" ++ text ++ "`")
  return [.line ("# unsupported " ++ kind ++ ": " ++ text)]

/-- The blank line between a member and the one before it. -/
def separator (separate : Bool) : List Code := if separate then [.blank 1] else []

/-- The code of a static property: a binding without a value. -/
def bindingCode (style : Style) (recased : Recased) (type : String) : Stubs (List Code) := do
  return [.line (recased.name ++ ": " ++ (← annotated style recased type))]

/-- The code of a property that can be read. -/
def getterCode (style : Style) (recased : Recased) (type : String) : Stubs (List Code) := do
  return .line "@property" :: (← aliasLines style recased) ++
    [.suite ("def " ++ recased.name ++ "(self) -> " ++ type ++ ":") [.line "raise NotImplementedError"]]

/-- The code that lets a property be set. -/
def setterCode (style : Style) (recased : Recased) (type : String) : Stubs (List Code) := do
  return .blank 1 :: .line ("@" ++ recased.name ++ ".setter") :: (← aliasLines style recased) ++
    [.line ("def " ++ recased.name ++ "(self, value: " ++ type ++ ") -> None: ...")]

/-- The code of a property with its type. -/
def propertyCode (style : Style) (recased : Recased) (readonly static : Bool) (type : String) :
    Stubs (List Code) := do
  if static then bindingCode style recased type
  else if readonly then getterCode style recased type
  else return (← getterCode style recased type) ++ (← setterCode style recased type)

/-- Uses the dispatcher of a scope, if there are overloads in it. -/
def useDispatch (dispatch : String) (entries : List Entry) : Stubs Unit := do
  if Entry.hasOverloads entries then Stubs.use ⟨"functools", dispatch⟩

/-- The code of a class with the code of its members. -/
def classCode (style : Style) (recased : Recased) (bases : Stubs (List String)) (isInterface : Bool)
    (members : Stubs (List Entry)) (isEmpty : Bool) : Stubs ClassCode := do
  useRuntime style "external"
  let aliases ← aliasLines style recased
  let header ← classHeader recased.name (← bases) isInterface
  let entries := (← members) ++ if isEmpty then [.plain [.line "..."]] else []
  useDispatch "singledispatchmethod" entries
  return ⟨aliases, header, entries⟩

/-- The stub of a function. -/
def stubLine (name : String) (params : List String) (result : Result) : Code := .line (stubText name params result)

/-- The annotation of a named type with its arguments. -/
def referenceText (name : String) (arguments : Stubs (List String)) : Stubs String := do
  return (← referenceHead name) ++ argumentsText (← arguments)

mutual

/-- The annotation of a type. -/
def typeText (style : Style) : TypeExpr → Stubs String
  | .keyword keyword => hostText keyword.hostType
  | .parenthesized inner => typeText style inner
  | .function params result => do
    let resultText ← optionalTypeText style result
    let callable ← typing "Callable"
    if params.any Param.isRest then return callable ++ "[..., " ++ resultText ++ "]"
    else
      return callable ++ "[[" ++ ", ".intercalate (← paramTypes style params) ++ "], " ++ resultText ++ "]"
  | .union items => do return " | ".intercalate (← typeTexts style items)
  | .intersection [] => typing "Any"
  | .intersection (first :: _) => typeText style first
  | .array element => do
    let elementText ← typeText style element
    return (← typing "List") ++ "[" ++ elementText ++ "]"
  | .tuple items => do
    let tuple ← typing "Tuple"
    if items.isEmpty then return tuple ++ "[()]"
    else return tuple ++ "[" ++ ", ".intercalate (← typeTexts style items) ++ "]"
  | .literal value => literalText value
  | .query name => do return (← typing "Type") ++ "[" ++ name ++ "]"
  | .members members =>
    Stubs.synthesize style.typeName fun name =>
      classCode style ⟨name, none⟩ (pure []) true (memberEntries style false members)
        (!members.any Member.isEmitted)
  | .reference name arguments => referenceText name (typeTexts style arguments)
  | .operator operator operand => if operator = "keyof" then return "str" else typeText style operand
  | .indexedAccess => do
    Stubs.report "IndexedAccessType" "indexed access type mapped to Any"
    typing "Any"
  | .unsupported kind => do
    Stubs.report kind "unsupported type mapped to Any"
    typing "Any"
termination_by structural type => type

/-- The annotations of types, in order. -/
def typeTexts (style : Style) : List TypeExpr → Stubs (List String)
  | [] => return []
  | type :: rest => do return (← typeText style type) :: (← typeTexts style rest)
termination_by structural types => types

/-- The annotation of a type that may be left out. -/
def optionalTypeText (style : Style) : Option TypeExpr → Stubs String
  | some type => typeText style type
  | none => typing "Any"
termination_by structural type => type

/-- The parameter types of a function type. -/
def paramTypes (style : Style) : List Param → Stubs (List String)
  | [] => return []
  | .mk _ type optional _ :: rest => do
    return (← optionalText optional (← optionalTypeText style type)) :: (← paramTypes style rest)
termination_by structural params => params

/-- The parameter at a position of a function; one without a name has no text. -/
def paramText (style : Style) (position : Nat) : Param → Stubs (Option String)
  | .mk name type optional rest =>
    match paramName? position name with
    | none => return none
    | some name =>
      if rest then
        match type with
        | some (.array element) => do return some ("*" ++ name ++ ": " ++ (← typeText style element))
        | type => do return some ("*" ++ name ++ ": " ++ (← optionalTypeText style type))
      else
        match type with
        | some type => do return some (← typedParam name optional (← typeText style type))
        | none => do return some (← untypedParam name optional)
termination_by structural param => param

/-- The parameters of a function, from a position on. -/
def paramTexts (style : Style) (position : Nat) : List Param → Stubs (List String)
  | [] => return []
  | param :: others => do return (← paramText style position param).toList ++ (← paramTexts style (position + 1) others)
termination_by structural params => params

/-- The result of a function.  A promise makes the function asynchronous and is unwrapped. -/
def resultText (style : Style) : Option TypeExpr → Stubs Result
  | some (.reference name []) => do
    if name = "Promise" then return ⟨"async def", ← typing "Any"⟩
    else return ⟨"def", ← referenceText name (pure [])⟩
  | some (.reference name (inner :: others)) => do
    if name = "Promise" then return ⟨"async def", ← typeText style inner⟩
    else return ⟨"def", ← referenceText name (typeTexts style (inner :: others))⟩
  | some type => do return ⟨"def", ← typeText style type⟩
  | none => do return ⟨"def", ← typing "Any"⟩
termination_by structural type => type

/-- The code of a member; `separate` says that code of another member stands before it. -/
def memberEntry (style : Style) (separate : Bool) : Member → Stubs Entry
  | .property (.other kind text) .. => do return .plain (← reportName kind text)
  | .property (.ident name) type optional readonly static => do
    let type ← optionalText optional (← optionalTypeText style type)
    return ⟨none, separator separate, ← propertyCode style (.snake name) readonly static type⟩
  | .method (.other kind text) .. => do return .plain (← reportName kind text)
  | .method (.ident name) params result => do
    let recased := Recased.snake name
    let aliases ← aliasLines style recased
    let params ← paramTexts style 0 params
    let result ← resultText style result
    return ⟨some recased.name, separator separate, aliases ++ [stubLine recased.name ("self" :: params) result]⟩
  | .constructor params => do
    let params := "self" :: (← paramTexts style 0 params)
    return ⟨some "__init__", separator separate,
      [.line ("def __init__(" ++ ", ".intercalate params ++ "): ...")]⟩
  | .unsupported kind => do
    Stubs.report kind "unsupported class member"
    return .plain []
termination_by structural member => member

/-- The code of members, in order. -/
def memberEntries (style : Style) (separate : Bool) : List Member → Stubs (List Entry)
  | [] => return []
  | member :: rest => do
    let entry ← memberEntry style separate member
    return entry :: (← memberEntries style (separate || member.isEmitted) rest)
termination_by structural members => members

end

end StubGen.DeclFile
