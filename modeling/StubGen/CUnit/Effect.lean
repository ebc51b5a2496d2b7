import StubGen.CUnit.Error
import StubGen.CUnit.Node

/-!
# Steps in a loop test

`splitTest` takes the increments and decrements out of the test of a loop.  A prefix step runs before the test is
evaluated for the first time, and every step runs again at the end of the body, before the test is evaluated anew.
-/

namespace StubGen.CUnit

/-- An increment or decrement. -/
structure Step where
  op : String
  operand : Node
  deriving Inhabited

namespace Step

/-- The step as an expression. -/
def node (step : Step) : Node := .unary step.op step.operand

/-- Whether the step happens after its value is taken. -/
def isPostfix (step : Step) : Bool := step.op.startsWith "p"

end Step

/-- A test without steps, the steps to run before the loop, and those to run at the end of its body. -/
structure SplitTest where
  before : List Step
  cond : Node
  after : List Step
  deriving Inhabited

namespace SplitTest

/-- A test that has no steps. -/
def pure (cond : Node) : SplitTest := ⟨[], cond, []⟩

/-- The test of two operands, each split by itself. -/
def binary (op : String) (left right : SplitTest) : SplitTest :=
  ⟨left.before ++ right.before, .binary op left.cond right.cond, left.after ++ right.after⟩

/-- The test of a step: its operand. -/
def ofStep (step : Step) : SplitTest :=
  ⟨if step.isPostfix then [] else [step], step.operand, [step]⟩

end SplitTest

/-- Splits an operand: it has no steps, or is a step of an operand without any. -/
def splitOperand (node : Node) : Except GenerateError SplitTest :=
  if !node.hasSteps then .ok (.pure node)
  else
    match node with
    | .unary op operand =>
      if Node.isStepOp op && !operand.hasSteps then .ok (.ofStep ⟨op, operand⟩)
      else .error (.unsupportedEffect ("nested effect in " ++ node.kind))
    | _ => .error (.unsupportedEffect ("nested effect in " ++ node.kind))

/-- Splits a test: a step, or a binary operation of operands that can be split.  The right operand of `&&` and
`||` must have no steps, since it is not always evaluated. -/
def splitTest (cond : Node) : Except GenerateError SplitTest :=
  if !cond.hasSteps then .ok (.pure cond)
  else if cond.isStep then splitOperand cond
  else
    match cond with
    | .binary op left right =>
      if (op = "&&" || op = "||") && right.hasSteps then
        .error (.unsupportedEffect ("right operand of `" ++ op ++ "`"))
      else do return .binary op (← splitOperand left) (← splitOperand right)
    | _ => .error (.unsupportedEffect cond.kind)

end StubGen.CUnit
