/-!
# Sets of characters

A set is given by the code points at which membership changes, in increasing order: members are the code points
from the first up to the second, from the third up to the fourth, and so on.
-/

namespace StubGen

/-- A set of code points. -/
structure CodeSet where
  bounds : List Nat

namespace CodeSet

/-- Whether an odd number of bounds is at most the code point. -/
def containsCode (set : CodeSet) (code : Nat) : Bool :=
  (set.bounds.takeWhile fun bound => decide (bound ≤ code)).length % 2 == 1

/-- Whether a character is a member. -/
def contains (set : CodeSet) (c : Char) : Bool := set.containsCode c.toNat

end CodeSet

end StubGen
