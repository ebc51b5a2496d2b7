import StubGen.DeclFile.Syntax
import StubGen.Json.Child
import StubGen.Json.Printer
import StubGen.ReadError
import StubGen.Text.Case

/-!
# Reading declaration files

A node is an object with a text in `kind`.  Each reader decides by the kind which fields it looks at; a node of a
kind that the reader does not know becomes `unsupported`.

* `readSource` reads the statements of a file.
* A field that a reader needs and that is absent or null is reported as missing.
-/

namespace StubGen.DeclFile

/-- A result of reading. -/
abbrev Read (α : Type) := Except ReadError α

/-- The kind of a node. -/
def kindOf (node : Json) : Read String :=
  match (node.get? "kind").bind Json.asText? with
  | some kind => .ok kind
  | none => .error (.missing "node" "kind")

/-- The failure that a node lacks a field. -/
def missing {α : Type} (node : Json) (field : String) : Read α :=
  .error (.missing (match kindOf node with
    | .ok kind => kind
    | .error _ => "node") field)

/-- A field that has to be there. -/
def need (node : Json) (field : String) : Read (Json.Part node) :=
  match node.part? field with
  | some part => .ok part
  | none => missing node field

/-- The text of an identifier or a literal. -/
def textOf? (node : Json) : Option String :=
  match node.get? "escapedText" with
  | some value => value.asText?
  | none => (node.get? "text").bind Json.asText?

/-- Whether a text has the form of an identifier. -/
def isIdentifier (text : String) : Bool :=
  let begins (c : Char) : Bool := CodeSet.alphabetic.contains c || c = '_' || c = '$'
  match text.toList with
  | [] => false
  | first :: rest => begins first && rest.all fun c => begins c || CodeSet.numeric.contains c

/-- The name of a declaration; a quoted name is an identifier if it looks like one. -/
def readName (node : Json) : Read Name :=
  match node.present? "name" with
  | none => do return .other (← kindOf node) "(anonymous)"
  | some name => do
    let kind ← kindOf name
    let text := (textOf? name).getD ""
    if kind = "Identifier" || (kind = "StringLiteral" && isIdentifier text) then return .ident text
    else return .other kind text

/-- A name with dots. -/
def readEntity (node : Json) : Read String := do
  let kind ← kindOf node
  if kind = "QualifiedName" then do
    let left ← need node "left"
    let leftText ← readEntity left.1
    let right ← need node "right"
    return leftText ++ "." ++ (← readEntity right.1)
  else if kind = "PropertyAccessExpression" then do
    let left ← need node "expression"
    let leftText ← readEntity left.1
    let right ← need node "name"
    return leftText ++ "." ++ (← readEntity right.1)
  else
    match textOf? node with
    | some text => return text
    | none => missing node "escapedText"
termination_by sizeOf node

/-- A literal.  A sign stands before a number only. -/
def readLiteral (node : Json) : Read Literal := do
  let kind ← kindOf node
  let text := (textOf? node).getD ""
  if kind ∈ ["StringLiteral", "NoSubstitutionTemplateLiteral"] then return .text text
  else if kind ∈ ["NumericLiteral", "FirstLiteralToken", "BigIntLiteral"] then return .number text
  else if kind = "PrefixUnaryExpression" then do
    let operand ← need node "operand"
    match ← readLiteral operand.1 with
    | .number digits => return .number ("-" ++ digits)
    | other => return other
  else if kind = "TrueKeyword" then return .bool true
  else if kind = "FalseKeyword" then return .bool false
  else if kind = "NullKeyword" then return .null
  else return .unsupported kind
termination_by sizeOf node

/-- The keyword type of a kind. -/
def keywordOf? (kind : String) : Option Keyword :=
  Keyword.all.find? fun keyword => keyword.name ++ "Keyword" = kind

/-- Whether a node has a modifier. -/
def hasModifier (node : Json) (modifier : String) : Bool :=
  (((node.get? "modifiers").bind Json.asArray?).getD []).any fun item =>
    (item.get? "kind").bind Json.asText? = some modifier

/-- Whether a node has a token. -/
def hasToken (node : Json) (token : String) : Bool := (node.present? token).isSome

/-- The text without the endings `Keyword`. -/
def dropKeywordEnding (text : List Char) : List Char :=
  if "Keyword".toList.isSuffixOf text then dropKeywordEnding (text.take (text.length - 7)) else text
termination_by text.length
decreasing_by
  have h : "Keyword".toList.length ≤ text.length := (List.isSuffixOf_iff_suffix.mp ‹_›).length_le
  simp at h
  simp
  omega

/-- The operator of a type: its word, or whatever else stands for it. -/
def operatorOf (node : Json) : String :=
  match node.get? "operator" with
  | some (.text word) => String.ofList (lowerText (dropKeywordEnding word.toList))
  | some other => other.compress
  | none => ""

mutual

/-- A type. -/
def readType (node : Json) : Read TypeExpr := do
  let kind ← kindOf node
  match keywordOf? kind with
  | some keyword => return .keyword keyword
  | none =>
    match kind with
    | "ParenthesizedType" => do
      let inner ← need node "type"
      return .parenthesized (← readType inner.1)
    | "FunctionType" | "ConstructorType" => do
      return .function (← (node.parts "parameters").mapM fun part => readParam part.1) (← readOptionalType node)
    | "UnionType" => do return .union (← (node.parts "types").mapM fun part => readType part.1)
    | "IntersectionType" => do return .intersection (← (node.parts "types").mapM fun part => readType part.1)
    | "ArrayType" => do
      let element ← need node "elementType"
      return .array (← readType element.1)
    | "TupleType" => do return .tuple (← (node.parts "elements").mapM fun part => readType part.1)
    | "NamedTupleMember" | "OptionalType" | "RestType" => do
      let inner ← need node "type"
      readType inner.1
    | "LiteralType" => do return .literal (← readLiteral (← need node "literal").1)
    | "TypeQuery" => do return .query (← readEntity (← need node "exprName").1)
    | "TypeLiteral" => do return .members (← (node.parts "members").mapM fun part => readMember part.1)
    | "TypeReference" => do
      return .reference (← readEntity (← need node "typeName").1)
        (← (node.parts "typeArguments").mapM fun part => readType part.1)
    | "ExpressionWithTypeArguments" => do
      return .reference (← readEntity (← need node "expression").1)
        (← (node.parts "typeArguments").mapM fun part => readType part.1)
    | "ThisType" => return .reference "this" []
    | "TypeOperator" => do
      let operand ← need node "type"
      return .operator (operatorOf node) (← readType operand.1)
    | "IndexedAccessType" => return .indexedAccess
    | kind => return .unsupported kind
termination_by (sizeOf node, 1)

/-- The type in the field `type`, if there is one. -/
def readOptionalType (node : Json) : Read (Option TypeExpr) :=
  match node.part? "type" with
  | some part => do return some (← readType part.1)
  | none => return none
termination_by (sizeOf node, 0)

def readParam (node : Json) : Read Param := do
  return .mk (← readName node) (← readOptionalType node) (hasToken node "questionToken")
    (hasToken node "dotDotDotToken")
termination_by (sizeOf node, 1)

def readMember (node : Json) : Read Member := do
  let kind ← kindOf node
  match kind with
  | "PropertyDeclaration" | "PropertySignature" => do
    return .property (← readName node) (← readOptionalType node) (hasToken node "questionToken")
      (hasModifier node "ReadonlyKeyword") (hasModifier node "StaticKeyword")
  | "MethodDeclaration" | "MethodSignature" => do
    return .method (← readName node) (← (node.parts "parameters").mapM fun part => readParam part.1)
      (← readOptionalType node)
  | "Constructor" | "ConstructSignature" => do
    return .constructor (← (node.parts "parameters").mapM fun part => readParam part.1)
  | kind => return .unsupported kind
termination_by (sizeOf node, 1)

end

/-- A list of nodes in a field; empty if the field holds no list. -/
def readList {α : Type} (node : Json) (field : String) (read : Json → Read α) : Read (List α) :=
  (((node.get? field).bind Json.asArray?).getD []).mapM read

def readBase (node : Json) : Read Base := do
  return ⟨← readEntity (← need node "expression").1, ← readList node "typeArguments" readType⟩

def readClass (node : Json) : Read ClassDecl := do
  return ⟨← readName node, ← readList node "heritageClauses" fun clause => readList clause "types" readBase,
    ← readList node "members" readMember⟩

def readEnumMember (node : Json) : Read EnumMember := do
  let name ← readName node
  match node.present? "initializer" with
  | some value => return ⟨name, some (← readLiteral value)⟩
  | none => return ⟨name, none⟩

def readVariable (node : Json) : Read Variable := do return ⟨← readName node, ← readOptionalType node⟩

def readStatement (node : Json) : Read Statement := do
  let kind ← kindOf node
  match kind with
  | "ClassDeclaration" => return .classDecl (← readClass node)
  | "InterfaceDeclaration" => return .interface (← readClass node)
  | "FunctionDeclaration" => do
    return .function (← readName node) (← readList node "parameters" readParam) (← readOptionalType node)
  | "TypeAliasDeclaration" => do return .typeAlias (← readName node) (← readType (← need node "type").1)
  | "EnumDeclaration" => do return .enum (← readName node) (← readList node "members" readEnumMember)
  | "VariableStatement" | "FirstStatement" => do
    let list ← need node "declarationList"
    return .variableDecls (← readList list.1 "declarations" readVariable)
  | "ModuleDeclaration" => return .module
  | kind => return .unsupported kind

/-- The statements of a file. -/
def readSource (root : Json) : Read (List Statement) := do
  let kind ← kindOf root
  if kind = "SourceFile" then readList root "statements" readStatement
  else .error (.unexpectedRoot "SourceFile" kind)

end StubGen.DeclFile
