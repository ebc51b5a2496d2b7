import StubGen.CUnit.Level
import StubGen.CUnit.Literal
import StubGen.CUnit.TypeHint
import StubGen.Name.Reserved

/-!
# Expressions

`renderExpr` writes a C expression in value position.  Casts, addresses and dereferences leave no trace; an
assignment to a variable becomes an assignment expression; an increment or decrement has no value in the output.

* `binding` is the level of the text that `renderExpr` gives.
* `renderAssignment` writes an assignment as a statement.
-/

namespace StubGen.CUnit

/-- How tightly the text of an expression binds.  What leaves no trace binds like its operand. -/
def binding : Node → Level
  | .binary op _ _ => (binaryLevel? op).getD .atom
  | .unary op operand =>
    if op = "!" then .not
    else if op = "-" ∨ op = "+" ∨ op = "~" then .unary
    else if op = "&" ∨ op = "*" then binding operand
    else .atom
  | .cast _ operand => binding operand
  | .ternary .. => .ternary
  | .exprList [expr] => binding expr
  | _ => .atom
termination_by structural expr => expr

/-- A text together with the level at which it binds. -/
structure Operand where
  level : Level
  text : Traced String

/-- The text of an operation, from its operands. -/
def renderBinary (reduce : Bool) (op : String) (left right : Operand) : Traced String :=
  match binaryLevel? op with
  | none => .fail (.unsupportedExpression ("operator " ++ op))
  | some level => do
    let leftText ← left.text
    let rightText ← right.text
    return enclose reduce level .left left.level leftText ++ " " ++ operatorText op ++ " " ++
      enclose reduce level .right right.level rightText

/-- The operator of a compound assignment. -/
def withoutEquals (op : String) : String := String.ofList (op.toList.reverse.dropWhile (· = '=')).reverse

/-- Whether an element of an initializer list names its place. -/
def isDesignated : Node → Bool
  | .designated .. => true
  | _ => false

mutual

/-- The text of an expression in value position. -/
def renderExpr (reduce : Bool) : Node → Traced String
  | .constant type value => pure (literalText type value)
  | .ident name => pure (escapeName name)
  | .binary op left right =>
    renderBinary reduce op ⟨binding left, renderExpr reduce left⟩ ⟨binding right, renderExpr reduce right⟩
  | .unary op operand =>
    if op = "!" then do return "not " ++ enclose reduce .not .left (binding operand) (← renderExpr reduce operand)
    else if op = "-" ∨ op = "+" ∨ op = "~" then do
      return op ++ enclose reduce .unary .left (binding operand) (← renderExpr reduce operand)
    else if op = "&" ∨ op = "*" then renderExpr reduce operand
    else if Node.isStepOp op then do .fail (.stepAsValue (← renderExpr reduce operand))
    else do return op ++ "(" ++ (← renderExpr reduce operand) ++ ")"
  | .assign op (.ident name) value => do
    let text ←
      if op = "=" then renderExpr reduce value
      else
        renderBinary reduce (withoutEquals op) ⟨.atom, pure (escapeName name)⟩
          ⟨binding value, renderExpr reduce value⟩
    return "(" ++ escapeName name ++ " := " ++ text ++ ")"
  | .assign _ target _ => .fail (.unsupportedExpression ("assignment to " ++ target.kind ++ " used as a value"))
  | .ternary cond whenTrue whenFalse => do
    let trueText ← renderExpr reduce whenTrue
    let condText ← renderExpr reduce cond
    let falseText ← renderExpr reduce whenFalse
    return enclose reduce .ternary .right (binding whenTrue) trueText ++ " if " ++
      enclose reduce .ternary .right (binding cond) condText ++ " else " ++
      enclose reduce .ternary .right (binding whenFalse) falseText
  | .call callee args => do
    let calleeText ← renderExpr reduce callee
    let argTexts ←
      match args with
      | some (.exprList exprs) => renderExprs reduce exprs
      | some arg => do pure [← renderExpr reduce arg]
      | none => pure []
    return enclose reduce .atom .left (binding callee) calleeText ++ "(" ++ ", ".intercalate argTexts ++ ")"
  | .subscript base index => do
    let baseText ← renderExpr reduce base
    let indexText ← renderExpr reduce index
    return enclose reduce .atom .left (binding base) baseText ++ "[" ++ indexText ++ "]"
  | .member base _ field => do
    let baseText ← renderExpr reduce base
    let fieldText ← renderExpr reduce field
    return enclose reduce .atom .left (binding base) baseText ++ "." ++ fieldText
  | .cast _ operand => renderExpr reduce operand
  | .exprList [expr] => renderExpr reduce expr
  | .exprList _ => .fail (.unsupportedExpression "comma expression used as a value")
  | .initList exprs =>
    if exprs.any isDesignated then do
      return "\x7b" ++ ", ".intercalate (← renderEntries reduce 0 exprs) ++ "\x7d"
    else do return "[" ++ ", ".intercalate (← renderExprs reduce exprs) ++ "]"
  | .compoundLiteral _ init => renderExpr reduce init
  | .typename name type => (typeHint (.typename name type)).toTraced
  | other => .fail (.unexpected other.kind "expression")
termination_by structural expr => expr

/-- The texts of expressions, in order. -/
def renderExprs (reduce : Bool) : List Node → Traced (List String)
  | [] => pure []
  | expr :: rest => do return (← renderExpr reduce expr) :: (← renderExprs reduce rest)
termination_by structural exprs => exprs

/-- The entries of an initializer list with designators; an element without one is keyed by its position. -/
def renderEntries (reduce : Bool) (position : Nat) : List Node → Traced (List String)
  | [] => pure []
  | .designated path value :: rest => do
    let key ←
      match path with
      | .ident name :: _ => pure ("'" ++ name ++ "'")
      | index :: _ => renderExpr reduce index
      | [] => pure (toString position)
    let text ← renderExpr reduce value
    return (key ++ ": " ++ text) :: (← renderEntries reduce (position + 1) rest)
  | expr :: rest => do
    let text ← renderExpr reduce expr
    return (toString position ++ ": " ++ text) :: (← renderEntries reduce (position + 1) rest)
termination_by structural exprs => exprs

end

/-- An assignment as a statement; a chain of plain assignments stays one. -/
def renderAssignment (reduce : Bool) (op : String) (target : Node) : Node → Traced String
  | .assign inner innerTarget value => do
    let targetText ← renderExpr reduce target
    let valueText ←
      if op = "=" ∧ inner = "=" then renderAssignment reduce inner innerTarget value
      else renderExpr reduce (.assign inner innerTarget value)
    return targetText ++ " " ++ op ++ " " ++ valueText
  | value => do
    let targetText ← renderExpr reduce target
    let valueText ← renderExpr reduce value
    return targetText ++ " " ++ op ++ " " ++ valueText
termination_by structural value => value

end StubGen.CUnit
