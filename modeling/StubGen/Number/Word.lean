/-!
# Machine words

`IsInt64` says which integers fit 64 bits with a sign, and `int64?` keeps just those.
-/

namespace StubGen

/-- An integer that fits 64 bits with a sign. -/
def IsInt64 (value : Int) : Prop := -0x8000000000000000 ≤ value ∧ value < 0x8000000000000000

instance (value : Int) : Decidable (IsInt64 value) := inferInstanceAs (Decidable (_ ∧ _))

/-- The integer itself, if it fits 64 bits with a sign. -/
def int64? (value : Int) : Option Int := if IsInt64 value then some value else none

theorem int64?_eq_some_iff {value result : Int} : int64? value = some result ↔ IsInt64 value ∧ value = result := by
  simp [int64?]

end StubGen
