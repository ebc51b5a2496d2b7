import StubGen.DeclFile.Outline
import StubGen.Layout.Document

/-!
# Outlines of modules

* `statementParts` gives the code of a statement, and `fileParts` that of a file.
* `document` puts the classes of the types that have no name ahead of the body.
-/

namespace StubGen.DeclFile

/-- A part of a module's body: a declaration of its scope, or a class with a scope of its own. -/
inductive Part where
  | entry (decl : Entry)
  | scope (decl : ClassCode)

/-- The part as a declaration of the module's scope. -/
def Part.toEntry : Part → Entry
  | .entry decl => decl
  | .scope decl => .plain decl.code

/-- The code of a module's body. -/
def bodyCode (parts : List Part) : List Code := Entry.decorate "singledispatch" (parts.map Part.toEntry)

/-- The code of a class or interface. -/
def writeClass (style : Style) (isInterface : Bool) (decl : ClassDecl) : Stubs (List Part) := do
  match decl.name with
  | .other kind text => do
    Stubs.report kind ("class without an identifier name `" ++ text ++ "`")
    return []
  | .ident name => do
    let bases := decl.heritage.flatten.mapM fun base => do
      return referenceName base.name ++ argumentsText (← typeTexts style base.arguments)
    let code ← classCode style (.pascal name) bases isInterface (memberEntries style false decl.members)
      (!decl.members.any Member.isEmitted)
    return [.scope code]

/-- The stub of a function. -/
def writeFunction (style : Style) (name : Name) (params : List Param) (result : Option TypeExpr) :
    Stubs (List Part) := do
  match name with
  | .other .. => do
    Stubs.report "FunctionDeclaration" "function without an identifier name"
    return []
  | .ident name => do
    let recased := Recased.snake name
    let aliases ← aliasLines style recased
    let params ← paramTexts style 0 params
    let result ← resultText style result
    return [.entry ⟨some recased.name, [.blank 2], aliases ++ [stubLine recased.name params result]⟩]

/-- The alias of a type. -/
def writeTypeAlias (style : Style) (name : Name) (type : TypeExpr) : Stubs (List Part) := do
  match name with
  | .other .. => do
    Stubs.report "TypeAliasDeclaration" "type alias without an identifier name"
    return []
  | .ident name => do
    let text ← typeText style type
    return [.entry (.plain [.blank 2, .line ((Recased.pascal name).name ++ " = " ++ text)])]

/-- The constant of an enumerator. -/
def enumeratorCode (member : EnumMember) : Stubs (List Code) :=
  match member.name with
  | .other kind text => reportName kind text
  | .ident name => do return [.line (escapeName name ++ " = " ++ (← enumeratorValue member.value))]

/-- The class of an enumeration. -/
def writeEnum (name : Name) (members : List EnumMember) : Stubs (List Part) := do
  match name with
  | .other .. => do
    Stubs.report "EnumDeclaration" "enum without an identifier name"
    return []
  | .ident name => do
    Stubs.use ⟨"enum", "Enum"⟩
    let lines := (← members.mapM enumeratorCode).flatten
    let ending := if members.any (·.name.ident?.isSome) then [] else [.line "..."]
    return [.entry (.plain [.blank 2, .suite ("class " ++ (Recased.pascal name).name ++ "(Enum):") (lines ++ ending)])]

/-- The annotation of a variable. -/
def writeVariable (style : Style) (declared : Variable) : Stubs (List Part) := do
  match declared.name with
  | .other .. => do
    Stubs.report "VariableStatement" "destructured variable declaration"
    return []
  | .ident name => do
    let recased := Recased.snake name
    let type ← annotated style recased (← optionalTypeText style declared.type)
    return [.entry (.plain [.blank 2, .line (recased.name ++ ": " ++ type)])]

/-- The code of a statement. -/
def statementParts (style : Style) : Statement → Stubs (List Part)
  | .classDecl decl => writeClass style false decl
  | .interface decl => writeClass style true decl
  | .function name params result => writeFunction style name params result
  | .typeAlias name type => writeTypeAlias style name type
  | .enum name members => writeEnum name members
  | .variableDecls declared => do return (← declared.mapM (writeVariable style)).flatten
  | .module => return []
  | .unsupported kind => do
    Stubs.report kind "unsupported statement"
    return []

/-- The parts of a file, with the import of the dispatcher if functions are overloaded. -/
def fileParts (style : Style) (statements : List Statement) : Stubs (List Part) := do
  let parts := (← statements.mapM (statementParts style)).flatten
  useDispatch "singledispatch" (parts.map Part.toEntry)
  return parts

/-- The document of a file: the blocks of synthesized types come before the body. -/
def document (options : DeclOptions) (log : Log) (parts : List Part) : Document :=
  ⟨options.header, .ofUses log.uses,
    (log.blocks.map fun block => Code.lines block.decl.code) ++ [Code.lines (bodyCode parts)]⟩

end StubGen.DeclFile
