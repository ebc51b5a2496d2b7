/-!
# Why a C construct has no form in the output

Each cause carries what its message shows.  The first cause met ends the generation, and nothing is written.
-/

namespace StubGen.CUnit

/-- The cause of a failed generation. -/
inductive GenerateError where
  | unsupportedEffect (place : String)
  /-- An increment or decrement of this operand stands where a value is needed. -/
  | stepAsValue (operand : String)
  | continueSkipsStep
  | breakSkipsEffect
  | conditionalBreak (label : String)
  | codeAfterBreak (label : String)
  | unsupportedDiscriminant (kind : String)
  | unsupportedSwitchItem (kind : String)
  | defaultNotLast
  | goto (label : String)
  | unsupportedExpression (what : String)
  /-- A node of this kind stands in a place that has no room for it. -/
  | unexpected (kind place : String)
  deriving DecidableEq, Repr, Inhabited

namespace GenerateError

/-- The wording of a cause. -/
def message : GenerateError → String
  | unsupportedEffect place => "unsupported side effect in condition: " ++ place
  | stepAsValue operand => "increment/decrement used as a value: " ++ operand
  | continueSkipsStep => "`continue` would skip the loop step of a rewritten loop"
  | breakSkipsEffect => "`break` would skip a postfix effect of the loop test"
  | conditionalBreak label => "conditional `break` inside switch case " ++ label
  | codeAfterBreak label => "unreachable code after `break` in switch case " ++ label
  | unsupportedDiscriminant kind => "unsupported switch discriminant: " ++ kind
  | unsupportedSwitchItem kind => "unsupported switch body item: " ++ kind
  | defaultNotLast => "`default` must be the last label when it falls through"
  | goto label => "goto " ++ label
  | unsupportedExpression what => "unsupported expression: " ++ what
  | unexpected kind place => "unexpected " ++ kind ++ " in " ++ place

end GenerateError

end StubGen.CUnit
