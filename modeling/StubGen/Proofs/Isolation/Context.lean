import StubGen.Proofs.Isolation.Place

/-!
# Parts of a declaration file

The nodes of a document, and the constructs that are read from them.

* A `Slot` is a part of a node that is itself read as a node, and a `Position` is a path of slots.
* A `Frame` is a construct with a part left open, and a `Context` is one with a part of a part left open.
* A `Tolerant` reader keeps a node of a kind that it does not know.
-/

namespace StubGen.DeclFile

/-- What is read from a node. -/
inductive Role where
  | file
  | statement
  /-- A list of the bases of a class. -/
  | clause
  | base
  /-- The list of the variables of a statement. -/
  | declarations
  | declared
  | member
  | param
  | type
  deriving DecidableEq, Repr

namespace Role

/-- What a role has for its syntax. -/
abbrev Syntax : Role → Type
  | file => List Statement
  | statement => Statement
  | clause => List Base
  | base => Base
  | declarations => List Variable
  | declared => Variable
  | member => Member
  | param => Param
  | type => TypeExpr

/-- The reader of a role. -/
def read : (role : Role) → Json → Read role.Syntax
  | file => readSource
  | statement => readStatement
  | clause => fun node => readList node "types" readBase
  | base => readBase
  | declarations => fun node => readList node "declarations" readVariable
  | declared => readVariable
  | member => readMember
  | param => readParam
  | type => readType

end Role

/-- The node has one of these kinds. -/
def HasKind (node : Json) (kinds : List String) : Prop := ∃ kind ∈ kinds, kindOf node = .ok kind

/-- The part of a node that is at a place and is read in a role. -/
inductive Slot : Role → Json → Place → Role → Prop
  | statement {node : Json} {index : Nat} : Slot .file node (.item "statements" index) .statement
  | classClause {node : Json} {index : Nat} : HasKind node ["ClassDeclaration"] →
      Slot .statement node (.item "heritageClauses" index) .clause
  | interfaceClause {node : Json} {index : Nat} : HasKind node ["InterfaceDeclaration"] →
      Slot .statement node (.item "heritageClauses" index) .clause
  | classMember {node : Json} {index : Nat} : HasKind node ["ClassDeclaration"] →
      Slot .statement node (.item "members" index) .member
  | interfaceMember {node : Json} {index : Nat} : HasKind node ["InterfaceDeclaration"] →
      Slot .statement node (.item "members" index) .member
  | functionParam {node : Json} {index : Nat} : HasKind node ["FunctionDeclaration"] →
      Slot .statement node (.item "parameters" index) .param
  | functionResult {node : Json} : HasKind node ["FunctionDeclaration"] → Slot .statement node (.field "type") .type
  | aliased {node : Json} : HasKind node ["TypeAliasDeclaration"] → Slot .statement node (.field "type") .type
  | declarations {node : Json} : HasKind node ["VariableStatement", "FirstStatement"] →
      Slot .statement node (.field "declarationList") .declarations
  | base {node : Json} {index : Nat} : Slot .clause node (.item "types" index) .base
  | baseArgument {node : Json} {index : Nat} : Slot .base node (.item "typeArguments" index) .type
  | declared {node : Json} {index : Nat} : Slot .declarations node (.item "declarations" index) .declared
  | declaredType {node : Json} : Slot .declared node (.field "type") .type
  | propertyType {node : Json} : HasKind node ["PropertyDeclaration", "PropertySignature"] →
      Slot .member node (.field "type") .type
  | methodParam {node : Json} {index : Nat} : HasKind node ["MethodDeclaration", "MethodSignature"] →
      Slot .member node (.item "parameters" index) .param
  | methodResult {node : Json} : HasKind node ["MethodDeclaration", "MethodSignature"] →
      Slot .member node (.field "type") .type
  | constructorParam {node : Json} {index : Nat} : HasKind node ["Constructor", "ConstructSignature"] →
      Slot .member node (.item "parameters" index) .param
  | paramType {node : Json} : Slot .param node (.field "type") .type
  | parenthesized {node : Json} : HasKind node ["ParenthesizedType"] → Slot .type node (.field "type") .type
  | taken {node : Json} {index : Nat} : HasKind node ["FunctionType", "ConstructorType"] →
      Slot .type node (.item "parameters" index) .param
  | given {node : Json} : HasKind node ["FunctionType", "ConstructorType"] → Slot .type node (.field "type") .type
  | unionItem {node : Json} {index : Nat} : HasKind node ["UnionType"] → Slot .type node (.item "types" index) .type
  | intersectionItem {node : Json} {index : Nat} : HasKind node ["IntersectionType"] →
      Slot .type node (.item "types" index) .type
  | element {node : Json} : HasKind node ["ArrayType"] → Slot .type node (.field "elementType") .type
  | tupleItem {node : Json} {index : Nat} : HasKind node ["TupleType"] → Slot .type node (.item "elements" index) .type
  | unwrapped {node : Json} : HasKind node ["NamedTupleMember", "OptionalType", "RestType"] →
      Slot .type node (.field "type") .type
  | member {node : Json} {index : Nat} : HasKind node ["TypeLiteral"] → Slot .type node (.item "members" index) .member
  | argument {node : Json} {index : Nat} : HasKind node ["TypeReference"] →
      Slot .type node (.item "typeArguments" index) .type
  | extendedArgument {node : Json} {index : Nat} : HasKind node ["ExpressionWithTypeArguments"] →
      Slot .type node (.item "typeArguments" index) .type
  | operand {node : Json} : HasKind node ["TypeOperator"] → Slot .type node (.field "type") .type

/-- The node at the end of a path, with the role in which it is read on the way from the first node. -/
inductive Position : Role → Json → List Place → Role → Json → Prop
  | here {role : Role} {node : Json} : Position role node [] role node
  | within {outer mid inner : Role} {node child target : Json} {place : Place} {path : List Place} :
      Slot outer node place mid → node.child? place = some child → Position mid child path inner target →
      Position outer node (place :: path) inner target

/-- A construct with a part left open. -/
inductive Frame : Role → Role → Type where
  | statement (before after : List Statement) : Frame .file .statement
  | classClause (name : Name) (before after : List (List Base)) (members : List Member) : Frame .statement .clause
  | interfaceClause (name : Name) (before after : List (List Base)) (members : List Member) : Frame .statement .clause
  | classMember (name : Name) (heritage : List (List Base)) (before after : List Member) : Frame .statement .member
  | interfaceMember (name : Name) (heritage : List (List Base)) (before after : List Member) : Frame .statement .member
  | functionParam (name : Name) (before after : List Param) (result : Option TypeExpr) : Frame .statement .param
  | functionResult (name : Name) (params : List Param) : Frame .statement .type
  | aliased (name : Name) : Frame .statement .type
  | declarations : Frame .statement .declarations
  | base (before after : List Base) : Frame .clause .base
  | baseArgument (name : String) (before after : List TypeExpr) : Frame .base .type
  | declared (before after : List Variable) : Frame .declarations .declared
  | declaredType (name : Name) : Frame .declared .type
  | propertyType (name : Name) (optional readonly static : Bool) : Frame .member .type
  | methodParam (name : Name) (before after : List Param) (result : Option TypeExpr) : Frame .member .param
  | methodResult (name : Name) (params : List Param) : Frame .member .type
  | constructorParam (before after : List Param) : Frame .member .param
  | paramType (name : Name) (optional rest : Bool) : Frame .param .type
  | parenthesized : Frame .type .type
  | taken (before after : List Param) (result : Option TypeExpr) : Frame .type .param
  | given (params : List Param) : Frame .type .type
  | unionItem (before after : List TypeExpr) : Frame .type .type
  | intersectionItem (before after : List TypeExpr) : Frame .type .type
  | element : Frame .type .type
  | tupleItem (before after : List TypeExpr) : Frame .type .type
  /-- A wrapper that leaves nothing behind. -/
  | unwrapped : Frame .type .type
  | member (before after : List Member) : Frame .type .member
  | argument (name : String) (before after : List TypeExpr) : Frame .type .type
  | operand (operator : String) : Frame .type .type

/-- The construct with the part put in. -/
def Frame.fill {outer inner : Role} : Frame outer inner → inner.Syntax → outer.Syntax
  | statement before after, part => before ++ part :: after
  | classClause name before after members, part => .classDecl ⟨name, before ++ part :: after, members⟩
  | interfaceClause name before after members, part => .interface ⟨name, before ++ part :: after, members⟩
  | classMember name heritage before after, part => .classDecl ⟨name, heritage, before ++ part :: after⟩
  | interfaceMember name heritage before after, part => .interface ⟨name, heritage, before ++ part :: after⟩
  | functionParam name before after result, part => .function name (before ++ part :: after) result
  | functionResult name params, part => .function name params (some part)
  | aliased name, part => .typeAlias name part
  | declarations, part => .variableDecls part
  | base before after, part => before ++ part :: after
  | baseArgument name before after, part => ⟨name, before ++ part :: after⟩
  | declared before after, part => before ++ part :: after
  | declaredType name, part => ⟨name, some part⟩
  | propertyType name optional readonly static, part => .property name (some part) optional readonly static
  | methodParam name before after result, part => .method name (before ++ part :: after) result
  | methodResult name params, part => .method name params (some part)
  | constructorParam before after, part => .constructor (before ++ part :: after)
  | paramType name optional rest, part => .mk name (some part) optional rest
  | parenthesized, part => .parenthesized part
  | taken before after result, part => .function (before ++ part :: after) result
  | given params, part => .function params (some part)
  | unionItem before after, part => .union (before ++ part :: after)
  | intersectionItem before after, part => .intersection (before ++ part :: after)
  | element, part => .array part
  | tupleItem before after, part => .tuple (before ++ part :: after)
  | unwrapped, part => part
  | member before after, part => .members (before ++ part :: after)
  | argument name before after, part => .reference name (before ++ part :: after)
  | operand operator, part => .operator operator part

/-- A construct with a part of a part left open. -/
inductive Context : Role → Role → Type where
  | hole {role : Role} : Context role role
  | within {outer mid inner : Role} (frame : Frame outer mid) (context : Context mid inner) : Context outer inner

/-- The construct with the part put in. -/
def Context.fill {outer inner : Role} : Context outer inner → inner.Syntax → outer.Syntax
  | hole, part => part
  | within frame context, part => frame.fill (context.fill part)

/-! ### Readers that keep what they do not know -/

/-- A reader that keeps a node of a kind that it does not know. -/
inductive Tolerant where
  | statement
  | member
  | type
  deriving DecidableEq, Repr

namespace Tolerant

/-- The role in which it reads. -/
def role : Tolerant → Role
  | statement => .statement
  | member => .member
  | type => .type

/-- The kinds that it knows. -/
def kinds : Tolerant → List String
  | statement => ["ClassDeclaration", "InterfaceDeclaration", "FunctionDeclaration", "TypeAliasDeclaration",
      "EnumDeclaration", "VariableStatement", "FirstStatement", "ModuleDeclaration"]
  | member => ["PropertyDeclaration", "PropertySignature", "MethodDeclaration", "MethodSignature", "Constructor",
      "ConstructSignature"]
  | type => Keyword.all.map (fun keyword => keyword.name ++ "Keyword") ++
      ["ParenthesizedType", "FunctionType", "ConstructorType", "UnionType", "IntersectionType", "ArrayType",
        "TupleType", "NamedTupleMember", "OptionalType", "RestType", "LiteralType", "TypeQuery", "TypeLiteral",
        "TypeReference", "ExpressionWithTypeArguments", "ThisType", "TypeOperator", "IndexedAccessType"]

/-- A node of a kind that it does not know. -/
def unsupported : (reader : Tolerant) → String → reader.role.Syntax
  | statement => Statement.unsupported
  | member => Member.unsupported
  | type => TypeExpr.unsupported

end Tolerant

end StubGen.DeclFile
