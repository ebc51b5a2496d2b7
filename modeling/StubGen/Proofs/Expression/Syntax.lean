import StubGen.Proofs.Expression.Rendering
import StubGen.Proofs.Host.Grammar

/-!
# Expressions over tokens

`IsExpression` holds of the expressions that are built from tokens of C by its operators, calls, subscripts, members,
casts, assignments to names and initializer lists without designators.

`hostExpr` is the host expression that such an expression stands for: casts, `&` and `*` leave no trace, `x op= v`
stands for the assignment of `x op v` to `x`, and every comparison has two operands.
-/

namespace StubGen.CUnit

open Host

/-- Names: letters, digits and low lines, the first no digit. -/
def IsIdentifier (name : String) : Prop :=
  ∃ c rest, name.toList = c :: rest ∧ isWordStart c ∧ ∀ d ∈ rest, isWordChar d

/-- Whether all characters after `previous` go on with a number. -/
def isNumberTail (hex : Bool) (previous : Char) : List Char → Bool
  | [] => true
  | c :: rest => numberGoesOn hex previous c && isNumberTail hex c rest

/-- Numeric constants: digits, letters and points, and a sign after the mark of an exponent. -/
def IsNumber (chars : List Char) : Prop :=
  ∃ c rest, chars = c :: rest ∧ isNumberStart c rest ∧ isNumberTail (isHexNumber c rest) c rest

/-- Whether the characters end with a quote, and have no other one that is not escaped. -/
def isQuotedTail (quote : Char) : List Char → Bool
  | [] => false
  | [c] => c = quote
  | '\\' :: _ :: rest => isQuotedTail quote rest
  | c :: rest => c ≠ quote && c ≠ '\n' && isQuotedTail quote rest

/-- The marks of an encoding that may precede a quoted constant. -/
def encodingMarks : List (List Char) := ["", "L", "u", "U", "u8"].map String.toList

/-- Character and string constants. -/
def IsQuoted (chars : List Char) : Prop :=
  ∃ mark quote rest, chars = mark ++ quote :: rest ∧ mark ∈ encodingMarks ∧ isQuote quote ∧ isQuotedTail quote rest

/-- Constants of C. -/
def IsConstant (value : String) : Prop := IsNumber value.toList ∨ IsQuoted value.toList

/-- The application of a binary operator. -/
def applyBinary (op : String) (left right : HostExpr) : HostExpr :=
  if op = "&&" then .binary "and" left right
  else if op = "||" then .binary "or" left right
  else if op ∈ ["<", ">", "<=", ">=", "==", "!="] then .compare left [op] [right]
  else .binary op left right

mutual

/-- The host expression that an expression stands for. -/
def hostExpr : Node → HostExpr
  | .constant type value => .literal (literalText type value)
  | .ident name => .name (escapeName name)
  | .binary op left right => applyBinary op (hostExpr left) (hostExpr right)
  | .unary op operand =>
    if op = "!" then .unary "not" (hostExpr operand)
    else if op = "-" ∨ op = "+" ∨ op = "~" then .unary op (hostExpr operand)
    else if op = "&" ∨ op = "*" then hostExpr operand
    else .call (.name op) [hostExpr operand]
  | .assign op (.ident name) value =>
    .named (escapeName name)
      (if op = "=" then hostExpr value
        else applyBinary (withoutEquals op) (.name (escapeName name)) (hostExpr value))
  | .ternary cond whenTrue whenFalse => .conditional (hostExpr cond) (hostExpr whenTrue) (hostExpr whenFalse)
  | .call callee none => .call (hostExpr callee) []
  | .call callee (some (.exprList args)) => .call (hostExpr callee) (hostExprs args)
  | .call callee (some arg) => .call (hostExpr callee) [hostExpr arg]
  | .subscript base index => .subscript (hostExpr base) (hostExpr index)
  | .member base _ (.ident field) => .attribute (hostExpr base) (escapeName field)
  | .cast _ operand => hostExpr operand
  | .exprList [expr] => hostExpr expr
  | .initList exprs => .list (hostExprs exprs)
  | _ => .list []
termination_by structural expr => expr

/-- The host expressions that expressions stand for, in order. -/
def hostExprs : List Node → List HostExpr
  | [] => []
  | expr :: rest => hostExpr expr :: hostExprs rest
termination_by structural exprs => exprs

end

/-- Whether an expression is a numeric constant in the host. -/
def isNumeric : HostExpr → Bool
  | .literal text =>
    match text.toList with
    | [] => false
    | c :: rest => isNumberStart c rest
  | _ => false

/-- Expressions over tokens of C. -/
inductive IsExpression : Node → Prop
  | constant (type : String) {value : String} : IsConstant value → IsExpression (.constant type value)
  | ident {name : String} : IsIdentifier name → IsExpression (.ident name)
  | binary (op : String) {left right : Node} :
      IsExpression left → IsExpression right → IsExpression (.binary op left right)
  | not {operand : Node} : IsExpression operand → IsExpression (.unary "!" operand)
  | sign {op : String} {operand : Node} :
      op ∈ ["-", "+", "~"] → IsExpression operand → IsExpression (.unary op operand)
  | address {op : String} {operand : Node} :
      op ∈ ["&", "*"] → IsExpression operand → IsExpression (.unary op operand)
  /-- `sizeof` and the like. -/
  | wordOperator {op : String} {operand : Node} :
      IsIdentifier op → op ∉ keywords → IsExpression operand → IsExpression (.unary op operand)
  | assign (op : String) {name : String} {value : Node} :
      IsIdentifier name → IsExpression value → IsExpression (.assign op (.ident name) value)
  | ternary {cond whenTrue whenFalse : Node} :
      IsExpression cond → IsExpression whenTrue → IsExpression whenFalse →
        IsExpression (.ternary cond whenTrue whenFalse)
  | call {callee : Node} {args : Option Node} :
      IsExpression callee → (∀ arg ∈ argsOf args, IsExpression arg) → IsExpression (.call callee args)
  | subscript {base index : Node} : IsExpression base → IsExpression index → IsExpression (.subscript base index)
  /-- A point after digits would be part of the number. -/
  | member {base : Node} (access : String) {field : String} :
      IsExpression base → isNumeric (hostExpr base) = false → IsIdentifier field →
        IsExpression (.member base access (.ident field))
  | cast (type : Node) {operand : Node} : IsExpression operand → IsExpression (.cast type operand)
  | single {expr : Node} : IsExpression expr → IsExpression (.exprList [expr])
  | initList {exprs : List Node} : (∀ expr ∈ exprs, IsExpression expr) → IsExpression (.initList exprs)

end StubGen.CUnit
