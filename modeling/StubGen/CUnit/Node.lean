/-!
# Syntax trees of C

One type holds every node of a C syntax tree, since the dump of a parser puts no limits on what stands where.

* `Node.kind` is the tag of a node in a dump; error messages name nodes by it.
* `Node.hasEffects` and `Node.hasSteps` say what evaluating an expression may change.
* `Node.intValue?` is the value of an integer constant.
-/

namespace StubGen.CUnit

/-- A node of a C syntax tree. -/
inductive Node where
  | unit (items : List Node)
  | function (decl : Node) (paramDecls : List Node) (body : Node)
  -- declarations and types
  | decl (name : Option String) (quals storage : List String) (type : Node) (init width : Option Node)
  | declList (decls : List Node)
  | typeDecl (name : Option String) (type : Node)
  | identifierType (names : List String)
  | pointer (target : Node)
  | array (element : Node) (size : Option Node)
  | functionType (params : Option Node) (result : Node)
  | paramList (params : List Node)
  | ellipsis
  | typedef (name : String) (type : Node)
  | typename (name : Option String) (type : Node)
  | struct (name : Option String) (members : Option (List Node))
  | union (name : Option String) (members : Option (List Node))
  | enum (name : Option String) (values : Option Node)
  | enumeratorList (enumerators : List Node)
  | enumerator (name : String) (value : Option Node)
  -- expressions
  | constant (type value : String)
  | ident (name : String)
  | binary (op : String) (left right : Node)
  | unary (op : String) (operand : Node)
  | assign (op : String) (target value : Node)
  | ternary (cond whenTrue whenFalse : Node)
  | call (callee : Node) (args : Option Node)
  | subscript (base index : Node)
  | member (base : Node) (access : String) (field : Node)
  | cast (type operand : Node)
  | exprList (exprs : List Node)
  | initList (exprs : List Node)
  | designated (path : List Node) (value : Node)
  | compoundLiteral (type init : Node)
  -- statements
  | block (items : List Node)
  | ifElse (cond whenTrue : Node) (whenFalse : Option Node)
  | forLoop (init cond next : Option Node) (body : Node)
  | whileLoop (cond body : Node)
  | doLoop (cond body : Node)
  | switch (cond body : Node)
  | caseLabel (label : Node) (stmts : List Node)
  | defaultLabel (stmts : List Node)
  | breakJump
  | continueJump
  | returnJump (value : Option Node)
  | gotoJump (label : String)
  | labelled (label : String) (stmt : Node)
  | empty
  | pragma (text : Option String)
  | staticAssert (cond : Node) (note : Option Node)
  deriving Inhabited

namespace Node

/-- The tag of a node in a dump. -/
def kind : Node → String
  | unit .. => "FileAST"
  | function .. => "FuncDef"
  | decl .. => "Decl"
  | declList .. => "DeclList"
  | typeDecl .. => "TypeDecl"
  | identifierType .. => "IdentifierType"
  | pointer .. => "PtrDecl"
  | array .. => "ArrayDecl"
  | functionType .. => "FuncDecl"
  | paramList .. => "ParamList"
  | ellipsis => "EllipsisParam"
  | typedef .. => "Typedef"
  | typename .. => "Typename"
  | struct .. => "Struct"
  | union .. => "Union"
  | enum .. => "Enum"
  | enumeratorList .. => "EnumeratorList"
  | enumerator .. => "Enumerator"
  | constant .. => "Constant"
  | ident .. => "ID"
  | binary .. => "BinaryOp"
  | unary .. => "UnaryOp"
  | assign .. => "Assignment"
  | ternary .. => "TernaryOp"
  | call .. => "FuncCall"
  | subscript .. => "ArrayRef"
  | member .. => "StructRef"
  | cast .. => "Cast"
  | exprList .. => "ExprList"
  | initList .. => "InitList"
  | designated .. => "NamedInitializer"
  | compoundLiteral .. => "CompoundLiteral"
  | block .. => "Compound"
  | ifElse .. => "If"
  | forLoop .. => "For"
  | whileLoop .. => "While"
  | doLoop .. => "DoWhile"
  | switch .. => "Switch"
  | caseLabel .. => "Case"
  | defaultLabel .. => "Default"
  | breakJump => "Break"
  | continueJump => "Continue"
  | returnJump .. => "Return"
  | gotoJump .. => "Goto"
  | labelled .. => "Label"
  | empty => "EmptyStatement"
  | pragma .. => "Pragma"
  | staticAssert .. => "StaticAssert"

/-- Whether an operator is an increment or a decrement; a leading `p` marks the postfix form. -/
def isStepOp (op : String) : Bool := op = "++" ∨ op = "--" ∨ op = "p++" ∨ op = "p--"

/-- Whether the node is an increment or a decrement. -/
def isStep : Node → Bool
  | unary op _ => isStepOp op
  | _ => false

def isIdent : Node → Bool
  | ident _ => true
  | _ => false

/-- Whether the node is the variable of this name. -/
def isVariable (name : String) : Node → Bool
  | ident other => other = name
  | _ => false

mutual

/-- Whether evaluating the expression may change state; a call may, since nothing is known about the callee. -/
def hasEffects : Node → Bool
  | unary op operand => isStepOp op || hasEffects operand
  | assign .. => true
  | binary _ left right => hasEffects left || hasEffects right
  | ternary cond whenTrue whenFalse => hasEffects cond || hasEffects whenTrue || hasEffects whenFalse
  | call .. => true
  | subscript base index => hasEffects base || hasEffects index
  | member base _ _ => hasEffects base
  | cast _ operand => hasEffects operand
  | exprList exprs => anyHasEffects exprs
  | initList exprs => anyHasEffects exprs
  | _ => false
termination_by structural node => node

/-- Whether one of the expressions may change state. -/
def anyHasEffects : List Node → Bool
  | [] => false
  | expr :: rest => hasEffects expr || anyHasEffects rest
termination_by structural exprs => exprs

end

mutual

/-- Whether the expression contains an increment or a decrement. -/
def hasSteps : Node → Bool
  | unary op operand => isStepOp op || hasSteps operand
  | assign _ target value => hasSteps target || hasSteps value
  | binary _ left right => hasSteps left || hasSteps right
  | ternary cond whenTrue whenFalse => hasSteps cond || hasSteps whenTrue || hasSteps whenFalse
  | call callee none => hasSteps callee
  | call callee (some args) => hasSteps callee || hasSteps args
  | subscript base index => hasSteps base || hasSteps index
  | member base _ _ => hasSteps base
  | cast _ operand => hasSteps operand
  | exprList exprs => anyHasSteps exprs
  | initList exprs => anyHasSteps exprs
  | _ => false
termination_by structural node => node

/-- Whether one of the expressions contains an increment or a decrement. -/
def anyHasSteps : List Node → Bool
  | [] => false
  | expr :: rest => hasSteps expr || anyHasSteps rest
termination_by structural exprs => exprs

end

end Node

end StubGen.CUnit
