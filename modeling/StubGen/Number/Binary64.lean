/-!
# Binary floating-point numbers of 64 bits

A finite number `± significand · 2 ^ exponent`, rounded from a ratio of naturals in exact arithmetic, and its
shortest decimal text.

* `Binary64.ofRatio` rounds to nearest, a tie to the even significand.
* `Binary64.ofDecimal` reads a decimal significand and a power of ten, one rounding per operation.
* `Binary64.digits` finds the fewest decimal digits that lie in the rounding interval of a number, and
  `Binary64.text` writes them.
-/

namespace StubGen

/-- A finite number: `significand < 2 ^ 53`, and `exponent` lies between `-1074` and `971`. -/
structure Binary64 where
  negative : Bool
  significand : Nat
  exponent : Int
  deriving DecidableEq, Repr, Inhabited

namespace Binary64

/-- A ratio rounded to an integer: to the nearest one, a tie to the even one. -/
def roundEven (num den : Nat) : Nat :=
  let quotient := num / den
  let twice := 2 * (num % den)
  if den < twice ∨ (twice = den ∧ quotient % 2 = 1) then quotient + 1 else quotient

/-- The ratio `num / den` divided by `2 ^ exponent`, as a ratio. -/
def scaleBy (num den : Nat) (exponent : Int) : Nat × Nat :=
  if 0 ≤ exponent then (num, den <<< exponent.toNat) else (num <<< (-exponent).toNat, den)

/-- The exponent at which the integer part of the ratio has 53 bits, but never less than the least one. -/
def exponentOf (num den : Nat) : Int :=
  let low : Int := (num.log2 : Int) - (den.log2 : Int) - 53
  let (n, d) := scaleBy num den low
  max (-1074) (if n / d < 1 <<< 53 then low else low + 1)

/-- The nearest finite number to `num / den`; none above the largest one. -/
def ofRatio (negative : Bool) (num den : Nat) : Option Binary64 :=
  if num = 0 then some ⟨negative, 0, -1074⟩
  else
    let exponent := exponentOf num den
    let (n, d) := scaleBy num den exponent
    let rounded := roundEven n d
    let (significand, exponent) := if rounded = 1 <<< 53 then (1 <<< 52, exponent + 1) else (rounded, exponent)
    if 971 < exponent then none else some ⟨negative, significand, exponent⟩

/-- The magnitude as a ratio. -/
def ratio (x : Binary64) : Nat × Nat :=
  if 0 ≤ x.exponent then (x.significand <<< x.exponent.toNat, 1) else (x.significand, 1 <<< (-x.exponent).toNat)

/-- The number nearest to `10 ^ power`, for the powers that have one. -/
def powerOfTen (power : Nat) : Option Binary64 :=
  if power ≤ 308 then ofRatio false (Nat.pow 10 power) 1 else none

/-- The rounded product of two magnitudes. -/
def mul (x y : Binary64) : Option Binary64 :=
  ofRatio x.negative (x.ratio.1 * y.ratio.1) (x.ratio.2 * y.ratio.2)

/-- The rounded quotient of two magnitudes. -/
def div (x y : Binary64) : Option Binary64 :=
  ofRatio x.negative (x.ratio.1 * y.ratio.2) (x.ratio.2 * y.ratio.1)

/-- Divides by ten to the power `power`, at most 308 places at a time, and stops at zero. -/
def scaleDown (x : Binary64) (power : Nat) : Option Binary64 :=
  if x.significand = 0 then some x
  else if power ≤ 308 then (powerOfTen power).bind x.div
  else ((powerOfTen 308).bind x.div).bind fun y => scaleDown y (power - 308)
termination_by power

/-- The number written `significand · 10 ^ exponent`: the significand is rounded, then scaled by a rounded power
of ten.  None when the result is too large. -/
def ofDecimal (negative : Bool) (significand : Nat) (exponent : Int) : Option Binary64 := do
  let x ← ofRatio negative significand 1
  if x.significand = 0 then some x
  else if exponent < 0 then x.scaleDown (-exponent).toNat
  else (powerOfTen exponent.toNat).bind x.mul

/-- The rounding interval of a positive number, in units of `2 ^ (exponent - 2)`: its two ends, and whether they
belong to it. -/
def interval (x : Binary64) : Nat × Nat × Bool :=
  let below := if x.significand = 1 <<< 52 ∧ -1074 < x.exponent then 1 else 2
  (4 * x.significand - below, 4 * x.significand + 2, x.significand % 2 = 0)

/-- Whether `candidate · 10 ^ power` rounds to the number. -/
def roundsTo (x : Binary64) (candidate : Nat) (power : Int) : Bool :=
  let (low, high, closed) := x.interval
  let (unitNum, unitDen) := scaleBy 1 1 (-(x.exponent - 2))
  let (tenNum, tenDen) := if 0 ≤ power then (Nat.pow 10 power.toNat, 1) else (1, Nat.pow 10 (-power).toNat)
  let value := candidate * tenNum * unitDen
  let low := low * unitNum * tenDen
  let high := high * unitNum * tenDen
  if closed then decide (low ≤ value ∧ value ≤ high) else decide (low < value ∧ value < high)

/-- The two neighbours of the number on the grid of multiples of `10 ^ power`, the nearer one first. -/
def neighbours (x : Binary64) (power : Int) : Nat × Nat :=
  let (num, den) := x.ratio
  let (num, den) := if 0 ≤ power then (num, den * Nat.pow 10 power.toNat) else (num * Nat.pow 10 (-power).toNat, den)
  let quotient := num / den
  if roundEven num den = quotient then (quotient, quotient + 1) else (quotient + 1, quotient)

/-- The first grid, from coarse to fine, on which a neighbour of the number rounds to it. -/
def digitsFrom (x : Binary64) : Int → Nat → Nat × Int
  | power, 0 => ((x.neighbours power).1, power)
  | power, steps + 1 =>
    let (near, far) := x.neighbours power
    if x.roundsTo near power then (near, power)
    else if x.roundsTo far power then (far, power)
    else digitsFrom x (power - 1) steps

/-- The shortest decimal that rounds to the magnitude, as digits and a power of ten. -/
def digits (x : Binary64) : Nat × Int :=
  if x.significand = 0 then (0, 0)
  else
    let (num, den) := x.ratio
    -- no finite number needs a grid finer than `10 ^ (-324)`, nor more than 17 digits
    x.digitsFrom (Nat.toDigits 10 (num / den)).length 400

/-- The text of the number: positional from `1e-5` up to `1e16`, with a fraction always, and else with an exponent. -/
def text (x : Binary64) : String :=
  let (value, power) := x.digits
  let shown := Nat.toDigits 10 value
  let point := (shown.length : Int) + power
  let zeros (n : Int) := List.replicate n.toNat '0'
  let body :=
    if x.significand = 0 then ['0', '.', '0']
    else if 0 ≤ power ∧ point ≤ 16 then shown ++ zeros power ++ ['.', '0']
    else if 0 < point ∧ point ≤ 16 then shown.take point.toNat ++ '.' :: shown.drop point.toNat
    else if -5 < point ∧ point ≤ 0 then '0' :: '.' :: zeros (-point) ++ shown
    else
      let fraction := if shown.length = 1 then [] else '.' :: shown.drop 1
      shown.take 1 ++ fraction ++ 'e' :: (toString (point - 1)).toList
  String.ofList (if x.negative then '-' :: body else body)

end Binary64

end StubGen
