import StubGen.CUnit.Expression

/-!
# Counting loops

A `for` loop counts when a variable runs from a start value by steps of one up or down to a bound.
`countingHeader` writes the header of such a loop over a range; the bound of the range is exclusive.
-/

namespace StubGen.CUnit

/-- The direction in which a `for` loop counts. -/
inductive Direction where
  | up
  | down
  deriving DecidableEq, Repr

/-- The step of a loop that counts in this direction. -/
def Direction.step : Direction → Int
  | up => 1
  | down => -1

/-- The direction in which an expression steps a variable by one. -/
def directionOf? (counter : String) : Node → Option Direction
  | .unary op operand =>
    if !operand.isVariable counter then none
    else if op = "++" ∨ op = "p++" then some .up
    else if op = "--" ∨ op = "p--" then some .down
    else none
  | .assign op target value =>
    if !target.isVariable counter || value.intValue? ≠ some 1 then none
    else if op = "+=" then some .up
    else if op = "-=" then some .down
    else none
  | _ => none

/-- The variable that an initializer of a loop sets, and its start value. -/
def induction? : Node → Option (String × Node)
  | .assign op (.ident name) value => if op = "=" then some (name, value) else none
  | .declList [.decl (some name) _ _ _ (some value) _] => some (name, value)
  | _ => none

/-- Whether a comparison bounds a loop of this direction, and if so whether the bound is reached. -/
def inclusive? (direction : Direction) (op : String) : Option Bool :=
  match direction with
  | .up => if op = "<" then some false else if op = "<=" then some true else none
  | .down => if op = ">" then some false else if op = ">=" then some true else none

/-- The bound of the range: a bound that is reached moves by one, as a number if it is one that fits. -/
def rangeBound (direction : Direction) (inclusive : Bool) (bound : Node) : Node :=
  if !inclusive then bound
  else
    match bound.intValue?.bind (fun value => int64? (value + direction.step)), direction with
    | some value, _ => .constant "int" (toString value)
    | none, .up => .binary "+" bound (.constant "int" "1")
    | none, .down => .binary "-" bound (.constant "int" "1")

/-- A counting loop: its variable, the start value, the bound of the range and the direction. -/
structure Counting where
  counter : String
  start : Node
  bound : Node
  direction : Direction

/-- The counting loop that the parts of a `for` header describe.  The bound must be free of effects, since a range
evaluates it only once. -/
def counting? (init cond next : Node) : Option Counting := do
  let (counter, start) ← induction? init
  let direction ← directionOf? counter next
  match cond with
  | .binary op left right =>
    if !left.isVariable counter || right.hasEffects then none
    else do
      let inclusive ← inclusive? direction op
      return ⟨counter, start, rangeBound direction inclusive right, direction⟩
  | _ => none

/-- The header of a counting loop. -/
def countingHeader (reduce : Bool) (loop : Counting) : Traced String := do
  let start ← renderExpr reduce loop.start
  let bound ← renderExpr reduce loop.bound
  let ending :=
    match loop.direction with
    | .up => "):"
    | .down => ", -1):"
  return "for " ++ escapeName loop.counter ++ " in range(" ++ start ++ ", " ++ bound ++ ending

end StubGen.CUnit
