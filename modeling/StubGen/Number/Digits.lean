/-!
# Digits

* `digitValue?` is the value of a character as a digit of a base.
* `digitsValue?` is the value of a sequence of digits, the most significant one first.
* `codePoint?` is the character of a code point in hexadecimal.
-/

namespace StubGen

/-- The place of a character among the digits and letters; letters of either case count on from ten. -/
def alphanumericRank? (c : Char) : Option Nat :=
  if c.isDigit then some (c.toNat - '0'.toNat)
  else if 'a' ≤ c ∧ c ≤ 'z' then some (c.toNat - 'a'.toNat + 10)
  else if 'A' ≤ c ∧ c ≤ 'Z' then some (c.toNat - 'A'.toNat + 10)
  else none

/-- The value of a digit of a base. -/
def digitValue? (base : Nat) (c : Char) : Option Nat := (alphanumericRank? c).filter (· < base)

/-- The value of the digits that follow a number. -/
def appendDigits? (base value : Nat) (digits : List Char) : Option Nat :=
  digits.foldlM (fun value c => (digitValue? base c).map fun digit => value * base + digit) value

/-- The value of digits in a base; no digits at all are zero. -/
def digitsValue? (base : Nat) (digits : List Char) : Option Nat := appendDigits? base 0 digits

/-- The character of a code point in hexadecimal.  Surrogates are no characters. -/
def codePoint? (digits : List Char) : Option Char := do
  let code ← digitsValue? 16 digits
  if digits.isEmpty || 0x10FFFF < code || (0xD800 ≤ code && code < 0xE000) then none else some (Char.ofNat code)

theorem digitValue?_lt {base value : Nat} {c : Char} (h : digitValue? base c = some value) : value < base := by
  simpa using (Option.filter_eq_some_iff.mp h).2

@[simp] theorem digitsValue?_nil (base : Nat) : digitsValue? base [] = some 0 := rfl

/-- Digits in two parts: the second part goes on from the value of the first. -/
theorem digitsValue?_append (base : Nat) (high low : List Char) :
    digitsValue? base (high ++ low) = (digitsValue? base high).bind (appendDigits? base · low) := by
  simp [digitsValue?, appendDigits?, List.foldlM_append]

end StubGen
