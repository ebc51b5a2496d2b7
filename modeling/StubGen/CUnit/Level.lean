/-!
# Binding levels

How tightly the operators of the output bind.  `needsParens` decides which operands are put in parentheses.
-/

namespace StubGen.CUnit

/-- The levels of the output's operators, loosest first.  Names, constants, calls and everything in brackets are
atoms. -/
inductive Level where
  | ternary
  | or
  | and
  | not
  | compare
  | bitOr
  | bitXor
  | bitAnd
  | shift
  | add
  | mul
  | unary
  | atom
  deriving DecidableEq, Repr, Inhabited

/-- The place of a level in the order. -/
def Level.rank : Level → Nat
  | ternary => 0
  | or => 1
  | and => 2
  | not => 3
  | compare => 4
  | bitOr => 5
  | bitXor => 6
  | bitAnd => 7
  | shift => 8
  | add => 9
  | mul => 10
  | unary => 11
  | atom => 12

theorem Level.rank_injective {a b : Level} (h : a.rank = b.rank) : a = b := by
  cases a <;> cases b <;> simp_all [rank]

/-- The level of a binary operator of C; none for what is no such operator. -/
def binaryLevel? (op : String) : Option Level :=
  if op = "||" then some .or
  else if op = "&&" then some .and
  else if op ∈ ["<", ">", "<=", ">=", "==", "!="] then some .compare
  else if op = "|" then some .bitOr
  else if op = "^" then some .bitXor
  else if op = "&" then some .bitAnd
  else if op ∈ ["<<", ">>"] then some .shift
  else if op ∈ ["+", "-"] then some .add
  else if op ∈ ["*", "/", "%"] then some .mul
  else none

/-- The output's spelling of a binary operator. -/
def operatorText (op : String) : String :=
  if op = "&&" then "and" else if op = "||" then "or" else op

/-- The side of its operator on which an operand stands. -/
inductive Side where
  | left
  | right
  deriving DecidableEq, Repr

/-- Whether an operand goes into parentheses.  An atom never does.  Without `reduce` everything else does, and so
does a comparison in a comparison, which would else be read as a chain; what remains is precedence, with operators
of one level grouped to the left. -/
def needsParens (reduce : Bool) (parent : Level) (side : Side) (child : Level) : Bool :=
  child ≠ .atom &&
    (!reduce || (parent = .compare && child = .compare) ||
      match side with
      | .left => child.rank < parent.rank
      | .right => child.rank ≤ parent.rank)

/-- The text of an operand, in parentheses where it needs them. -/
def enclose (reduce : Bool) (parent : Level) (side : Side) (child : Level) (text : String) : String :=
  if needsParens reduce parent side child then "(" ++ text ++ ")" else text

theorem needsParens_atom (reduce : Bool) (parent : Level) (side : Side) :
    needsParens reduce parent side .atom = false := rfl

end StubGen.CUnit
