/-!
# Runs of case mappings

A run says that every `stride`-th character from `first` to `last` is shifted by the same offset.
-/

namespace StubGen

/-- Characters with the same distance to their mapped form. -/
structure CaseRun where
  first : Nat
  last : Nat
  stride : Nat
  offset : Int

namespace CaseRun

/-- Whether the run maps a code point. -/
def covers (run : CaseRun) (code : Nat) : Bool :=
  run.first ≤ code ∧ code ≤ run.last ∧ (code - run.first) % run.stride = 0

/-- The mapped form of a code point that the run covers. -/
def apply (run : CaseRun) (code : Nat) : Nat := ((code : Int) + run.offset).toNat

/-- The code point that the run maps to `code`. -/
def preimage? (run : CaseRun) (code : Nat) : Option Nat :=
  let source := ((code : Int) - run.offset).toNat
  if run.covers source ∧ run.apply source = code then some source else none

/-- The form of a code point under the first run that covers it; a code point of no run is its own form. -/
def mapWith (runs : List CaseRun) (code : Nat) : Nat :=
  match runs.find? (·.covers code) with
  | some run => run.apply code
  | none => code

end CaseRun

end StubGen
