import StubGen.DeclFile.Emission
import StubGen.DeclFile.Text
import StubGen.Layout.Document

/-!
# Stub modules

Classes and interfaces become external classes whose members are stubs, functions become stubs, and types become
annotations.  A type without a name is written ahead of the module's body and gets a name of its own.

* `renderType` gives the annotation of a type, and `emitMember` writes a member of a class.
* `emitStatement` writes a statement, and `generate` the module of a file.
-/

namespace StubGen.DeclFile

open Emission

/-- Writes the decorator that tells the declared name, where it is not the emitted one. -/
def emitAlias (style : Style) (recased : Recased) : Emission Unit := do
  if let some declared := recased.declared then
    useRuntime style "alias"
    line ("@" ++ aliasText declared)

/-- Reports a member whose name is no identifier. -/
def emitUnsupportedName (kind text : String) : Emission Unit := do
  Stubs.report kind ("unsupported member name `" ++ text ++ "`")
  line ("# unsupported " ++ kind ++ ": " ++ text)

/-- Sets a member apart from the one before it. -/
def emitSeparator (separate : Bool) : Emission Unit := do
  if separate then blank 1

/-- Writes a placeholder if no statement was emitted. -/
def emitPlaceholder (emitted : Bool) : Emission Unit := do
  if !emitted then line "..."

/-- Writes a property with its type. -/
def emitProperty (style : Style) (recased : Recased) (readonly static : Bool) (type : String) : Emission Unit := do
  if static then
    line (recased.name ++ ": " ++ (← annotated style recased type))
  else
    line "@property"
    emitAlias style recased
    line ("def " ++ recased.name ++ "(self) -> " ++ type ++ ":")
    indent
    line "raise NotImplementedError"
    dedent
    if !readonly then
      blank 1
      line ("@" ++ recased.name ++ ".setter")
      emitAlias style recased
      line ("def " ++ recased.name ++ "(self, value: " ++ type ++ ") -> None: ...")

/-- Writes a class with its members, as a scope of its own. -/
def emitClass (style : Style) (recased : Recased) (bases : Emission (List String)) (isInterface : Bool)
    (members : Emission (OverloadScope × Bool)) : Emission Unit := do
  blank 2
  useRuntime style "external"
  line "@external"
  emitAlias style recased
  line (← classHeader recased.name (← bases) isInterface)
  indent
  let (scope, emitted) ← members
  emitPlaceholder emitted
  finishOverloads "singledispatchmethod" scope
  dedent

/-- The annotation of a named type with its arguments. -/
def renderReference (name : String) (arguments : Emission (List String)) : Emission String := do
  return (← referenceHead name) ++ argumentsText (← arguments)

mutual

/-- The annotation of a type. -/
def renderType (style : Style) : TypeExpr → Emission String
  | .keyword keyword => hostText keyword.hostType
  | .parenthesized inner => renderType style inner
  | .function params result => do
    let resultText ← renderOptionalType style result
    let callable ← typing "Callable"
    if params.any Param.isRest then return callable ++ "[..., " ++ resultText ++ "]"
    else
      return callable ++ "[[" ++ ", ".intercalate (← renderParamTypes style params) ++ "], " ++ resultText ++ "]"
  | .union items => do return " | ".intercalate (← renderTypes style items)
  | .intersection [] => typing "Any"
  | .intersection (first :: _) => renderType style first
  | .array element => do
    let elementText ← renderType style element
    return (← typing "List") ++ "[" ++ elementText ++ "]"
  | .tuple items => do
    let tuple ← typing "Tuple"
    if items.isEmpty then return tuple ++ "[()]"
    else return tuple ++ "[" ++ ", ".intercalate (← renderTypes style items) ++ "]"
  | .literal value => literalText value
  | .query name => do return (← typing "Type") ++ "[" ++ name ++ "]"
  | .members members =>
    synthesize style.typeName fun name =>
      emitClass style ⟨name, none⟩ (pure []) true (emitMembers style [] false members)
  | .reference name arguments => renderReference name (renderTypes style arguments)
  | .operator operator operand => if operator = "keyof" then return "str" else renderType style operand
  | .indexedAccess => do
    Stubs.report "IndexedAccessType" "indexed access type mapped to Any"
    typing "Any"
  | .unsupported kind => do
    Stubs.report kind "unsupported type mapped to Any"
    typing "Any"
termination_by structural type => type

/-- The annotations of types, in order. -/
def renderTypes (style : Style) : List TypeExpr → Emission (List String)
  | [] => return []
  | type :: rest => do return (← renderType style type) :: (← renderTypes style rest)
termination_by structural types => types

/-- The annotation of a type that may be left out. -/
def renderOptionalType (style : Style) : Option TypeExpr → Emission String
  | some type => renderType style type
  | none => typing "Any"
termination_by structural type => type

/-- The parameter types of a function type. -/
def renderParamTypes (style : Style) : List Param → Emission (List String)
  | [] => return []
  | .mk _ type optional _ :: rest => do
    return (← optionalText optional (← renderOptionalType style type)) :: (← renderParamTypes style rest)
termination_by structural params => params

/-- The parameter at a position of a function; one without a name has no text. -/
def renderParam (style : Style) (position : Nat) : Param → Emission (Option String)
  | .mk name type optional rest =>
    match paramName? position name with
    | none => return none
    | some name =>
      if rest then
        match type with
        | some (.array element) => do return some ("*" ++ name ++ ": " ++ (← renderType style element))
        | type => do return some ("*" ++ name ++ ": " ++ (← renderOptionalType style type))
      else
        match type with
        | some type => do return some (← typedParam name optional (← renderType style type))
        | none => do return some (← untypedParam name optional)
termination_by structural param => param

/-- The parameters of a function, from a position on. -/
def renderParams (style : Style) (position : Nat) : List Param → Emission (List String)
  | [] => return []
  | param :: others => do
    return (← renderParam style position param).toList ++ (← renderParams style (position + 1) others)
termination_by structural params => params

/-- The result of a function.  A promise makes the function asynchronous and is unwrapped. -/
def renderResult (style : Style) : Option TypeExpr → Emission Result
  | some (.reference name []) => do
    if name = "Promise" then return ⟨"async def", ← typing "Any"⟩
    else return ⟨"def", ← renderReference name (pure [])⟩
  | some (.reference name (inner :: others)) => do
    if name = "Promise" then return ⟨"async def", ← renderType style inner⟩
    else return ⟨"def", ← renderReference name (renderTypes style (inner :: others))⟩
  | some type => do return ⟨"def", ← renderType style type⟩
  | none => do return ⟨"def", ← typing "Any"⟩
termination_by structural type => type

/-- Writes a member; `separate` says that another one stands before it.  The result is the scope after the member, and
whether the member has a statement. -/
def emitMember (style : Style) (scope : OverloadScope) (separate : Bool) : Member → Emission (OverloadScope × Bool)
  | .property (.other kind text) .. => do
    emitUnsupportedName kind text
    return (scope, false)
  | .property (.ident name) type optional readonly static => do
    emitSeparator separate
    let type ← optionalText optional (← renderOptionalType style type)
    emitProperty style (.snake name) readonly static type
    return (scope, true)
  | .method (.other kind text) .. => do
    emitUnsupportedName kind text
    return (scope, false)
  | .method (.ident name) params result => do
    emitSeparator separate
    let recased := Recased.snake name
    let scope ← declare scope recased.name
    emitAlias style recased
    let params ← renderParams style 0 params
    let result ← renderResult style result
    line (stubText recased.name ("self" :: params) result)
    return (scope, true)
  | .constructor params => do
    emitSeparator separate
    let scope ← declare scope "__init__"
    let params := "self" :: (← renderParams style 0 params)
    line ("def __init__(" ++ ", ".intercalate params ++ "): ...")
    return (scope, true)
  | .unsupported kind => do
    Stubs.report kind "unsupported class member"
    return (scope, false)
termination_by structural member => member

/-- Writes members, in order; `emitted` says that there is a statement before them. -/
def emitMembers (style : Style) (scope : OverloadScope) (emitted : Bool) : List Member → Emission (OverloadScope × Bool)
  | [] => return (scope, emitted)
  | member :: rest => do
    let (scope, more) ← emitMember style scope emitted member
    emitMembers style scope (emitted || more) rest
termination_by structural members => members

end

/-- The text of a base. -/
def renderBase (style : Style) (base : Base) : Emission String := do
  return referenceName base.name ++ argumentsText (← renderTypes style base.arguments)

/-- Writes a class or interface of a file. -/
def emitClassDecl (style : Style) (isInterface : Bool) (decl : ClassDecl) : Emission Unit := do
  match decl.name with
  | .other kind text => Stubs.report kind ("class without an identifier name `" ++ text ++ "`")
  | .ident name =>
    emitClass style (.pascal name) (decl.heritage.flatten.mapM (renderBase style)) isInterface
      (emitMembers style [] false decl.members)

/-- Writes the stub of a function. -/
def emitFunction (style : Style) (scope : OverloadScope) (name : Name) (params : List Param)
    (result : Option TypeExpr) : Emission OverloadScope := do
  match name with
  | .other .. => do
    Stubs.report "FunctionDeclaration" "function without an identifier name"
    return scope
  | .ident name => do
    blank 2
    let recased := Recased.snake name
    let scope ← declare scope recased.name
    emitAlias style recased
    let params ← renderParams style 0 params
    let result ← renderResult style result
    line (stubText recased.name params result)
    return scope

/-- Writes the alias of a type. -/
def emitTypeAlias (style : Style) (name : Name) (type : TypeExpr) : Emission Unit := do
  match name with
  | .other .. => Stubs.report "TypeAliasDeclaration" "type alias without an identifier name"
  | .ident name => do
    blank 2
    let text ← renderType style type
    line ((Recased.pascal name).name ++ " = " ++ text)

/-- Writes an enumerator.  The result says whether it has a statement. -/
def emitEnumerator (member : EnumMember) : Emission Bool := do
  match member.name with
  | .other kind text => do
    emitUnsupportedName kind text
    return false
  | .ident name => do
    line (escapeName name ++ " = " ++ (← enumeratorValue member.value))
    return true

/-- Writes the class of an enumeration. -/
def emitEnum (name : Name) (members : List EnumMember) : Emission Unit := do
  match name with
  | .other .. => Stubs.report "EnumDeclaration" "enum without an identifier name"
  | .ident name => do
    blank 2
    Stubs.use ⟨"enum", "Enum"⟩
    line ("class " ++ (Recased.pascal name).name ++ "(Enum):")
    indent
    let emitted ← members.mapM emitEnumerator
    emitPlaceholder (emitted.any id)
    dedent

/-- Writes the annotation of a variable. -/
def emitVariable (style : Style) (declared : Variable) : Emission Unit := do
  match declared.name with
  | .other .. => Stubs.report "VariableStatement" "destructured variable declaration"
  | .ident name => do
    blank 2
    let recased := Recased.snake name
    let type ← annotated style recased (← renderOptionalType style declared.type)
    line (recased.name ++ ": " ++ type)

/-- Writes a statement.  The result is the scope of the file's functions after it. -/
def emitStatement (style : Style) (scope : OverloadScope) : Statement → Emission OverloadScope
  | .function name params result => emitFunction style scope name params result
  | .classDecl decl => do emitClassDecl style false decl; return scope
  | .interface decl => do emitClassDecl style true decl; return scope
  | .typeAlias name type => do emitTypeAlias style name type; return scope
  | .enum name members => do emitEnum name members; return scope
  | .variableDecls declared => do declared.forM (emitVariable style); return scope
  | .module => return scope
  | .unsupported kind => do Stubs.report kind "unsupported statement"; return scope

/-- Writes the statements of a file, with the decorators of its functions. -/
def emitFile (style : Style) (statements : List Statement) : Emission Unit := do
  finishOverloads "singledispatch" (← statements.foldlM (emitStatement style) [])

/-- The document of a file: the types that have no name come before the body. -/
def Output.document (options : DeclOptions) (output : Output) : Document :=
  ⟨options.header, output.imports, output.blocks ++ [output.emitter.finish]⟩

/-- The module of a file. -/
def generate (options : DeclOptions) (statements : List Statement) : Generated :=
  let (_, output) := (emitFile (.ofOptions options) statements).exec .start
  ⟨(output.document options).render, output.diagnostics⟩

end StubGen.DeclFile
