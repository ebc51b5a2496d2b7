import StubGen.HostType

/-!
# Syntax of declaration files

The part of TypeScript's declarations that has a form in the output.  Nodes of any other kind are kept as
`unsupported`, with their kind, so that they can be reported.
-/

namespace StubGen.DeclFile

/-- The name of a declaration: an identifier, or the text of some other node. -/
inductive Name where
  | ident (text : String)
  | other (kind text : String)
  deriving DecidableEq, Repr, Inhabited

/-- The name, if it is an identifier. -/
def Name.ident? : Name → Option String
  | ident text => some text
  | other .. => none

/-- A literal in a type, or as the value of an enumerator. -/
inductive Literal where
  | text (value : String)
  | number (digits : String)
  | bool (value : Bool)
  | null
  | unsupported (kind : String)
  deriving DecidableEq, Repr, Inhabited

mutual

/-- A type. -/
inductive TypeExpr where
  | keyword (keyword : Keyword)
  | parenthesized (inner : TypeExpr)
  | function (params : List Param) (result : Option TypeExpr)
  | union (items : List TypeExpr)
  | intersection (items : List TypeExpr)
  | array (element : TypeExpr)
  | tuple (items : List TypeExpr)
  | literal (value : Literal)
  /-- The type of a value, by its name. -/
  | query (name : String)
  /-- A type without a name, by its members. -/
  | members (members : List Member)
  | reference (name : String) (arguments : List TypeExpr)
  | operator (operator : String) (operand : TypeExpr)
  | indexedAccess
  | unsupported (kind : String)

/-- A parameter. -/
inductive Param where
  | mk (name : Name) (type : Option TypeExpr) (optional rest : Bool)

/-- A member of a class, an interface or a type without a name. -/
inductive Member where
  | property (name : Name) (type : Option TypeExpr) (optional readonly static : Bool)
  | method (name : Name) (params : List Param) (result : Option TypeExpr)
  | constructor (params : List Param)
  | unsupported (kind : String)

end

instance : Inhabited TypeExpr := ⟨.indexedAccess⟩

instance : Inhabited Param := ⟨.mk default none false false⟩

instance : Inhabited Member := ⟨.constructor []⟩

/-- A type that a class or interface extends. -/
structure Base where
  name : String
  arguments : List TypeExpr
  deriving Inhabited

/-- A class or an interface.  Its bases are grouped by clause. -/
structure ClassDecl where
  name : Name
  heritage : List (List Base)
  members : List Member
  deriving Inhabited

structure EnumMember where
  name : Name
  value : Option Literal
  deriving Inhabited

structure Variable where
  name : Name
  type : Option TypeExpr
  deriving Inhabited

/-- A statement of a declaration file. -/
inductive Statement where
  | classDecl (decl : ClassDecl)
  | interface (decl : ClassDecl)
  | function (name : Name) (params : List Param) (result : Option TypeExpr)
  | typeAlias (name : Name) (type : TypeExpr)
  | enum (name : Name) (members : List EnumMember)
  | variableDecls (declared : List Variable)
  | module
  | unsupported (kind : String)
  deriving Inhabited

/-- Whether a type is a promise at its top. -/
def TypeExpr.isPromise : TypeExpr → Bool
  | reference name _ => name = "Promise"
  | _ => false

/-- Whether a parameter takes all further arguments. -/
def Param.isRest : Param → Bool
  | mk _ _ _ rest => rest

/-- Whether a member has code in the output. -/
def Member.isEmitted : Member → Bool
  | property (.ident _) .. => true
  | method (.ident _) .. => true
  | constructor _ => true
  | _ => false

end StubGen.DeclFile
