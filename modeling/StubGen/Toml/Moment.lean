import StubGen.Number.Digits

/-!
# Dates and times of TOML

`skipMoment?` passes over a date, a time of the day, or both with a distance from universal time.
-/

namespace StubGen.Toml

/-- The number that the next digits are, if there are enough of them and it is within bounds. -/
def boundedDigits? (width low high : Nat) (chars : List Char) : Option (Nat × List Char) := do
  if chars.length < width then none
  let value ← digitsValue? 10 (chars.take width)
  if low ≤ value ∧ value ≤ high then some (value, chars.drop width) else none

/-- The characters after a mark. -/
def skipMark? (mark : Char) : List Char → Option (List Char)
  | [] => none
  | c :: rest => if c = mark then some rest else none

/-- The number of days of a month. -/
def daysOf (year month : Nat) : Nat :=
  if month = 2 then if year % 4 = 0 ∧ (year % 100 ≠ 0 ∨ year % 400 = 0) then 29 else 28
  else if month ∈ [4, 6, 9, 11] then 30
  else 31

/-- The characters after a date. -/
def skipDate? (chars : List Char) : Option (List Char) := do
  let (year, rest) ← boundedDigits? 4 0 9999 chars
  let (month, rest) ← boundedDigits? 2 1 12 (← skipMark? '-' rest)
  let (_, rest) ← boundedDigits? 2 1 (daysOf year month) (← skipMark? '-' rest)
  return rest

/-- The characters after hours and minutes. -/
def skipMinutes? (chars : List Char) : Option (List Char) := do
  let (_, rest) ← boundedDigits? 2 0 23 chars
  let (_, rest) ← boundedDigits? 2 0 59 (← skipMark? ':' rest)
  return rest

/-- The characters after a time of the day.  A minute may have a leap second. -/
def skipTime? (chars : List Char) : Option (List Char) := do
  let (_, rest) ← boundedDigits? 2 0 60 (← skipMark? ':' (← skipMinutes? chars))
  match rest with
  | '.' :: places =>
    let rest := places.dropWhile Char.isDigit
    if rest.length = places.length then none else some rest
  | rest => some rest

/-- The characters after a distance from universal time, if one is given. -/
def skipOffset : List Char → List Char
  | [] => []
  | mark :: rest =>
    if mark ∈ ['Z', 'z'] then rest
    else if mark ∈ ['+', '-'] then (skipMinutes? rest).getD (mark :: rest)
    else mark :: rest

/-- The characters after the time of a date, if one is given. -/
def skipTimeOfDate : List Char → List Char
  | [] => []
  | mark :: rest =>
    match if mark ∈ ['T', 't', ' '] then skipTime? rest else none with
    | some rest => skipOffset rest
    | none => mark :: rest

/-- The characters after a date, a time of the day, or both. -/
def skipMoment? (chars : List Char) : Option (List Char) :=
  match skipDate? chars with
  | some rest => some (skipTimeOfDate rest)
  | none => skipTime? chars

end StubGen.Toml
