import StubGen.CUnit.Node
import StubGen.Number.Digits
import StubGen.Number.Word

/-!
# Constants of C

* `literalText` writes a constant in the notation of the output: without suffixes, and octal numbers with `0o`.
* `Node.intValue?` is the value of an integer constant that fits 64 signed bits.
-/

namespace StubGen.CUnit

/-- The suffixes that mark the type of an integer. -/
def intSuffixes : List String := ["ull", "llu", "ll", "ul", "lu", "l", "uz", "zu", "u", "z"]

/-- The characters an integer may have before its suffix. -/
def isIntegerChar (c : Char) : Bool :=
  c.isDigit || 'a' ≤ c && c ≤ 'f' || 'A' ≤ c && c ≤ 'F' || c = '.' || c = 'x' || c = 'X'

/-- The lower-case form of an ASCII letter. -/
def asciiLower (chars : List Char) : String := String.ofList (chars.map Char.toLower)

/-- The constant without the suffix of an integer.  No suffix starts with a character of an integer, so the suffix
is all that follows those characters. -/
def dropIntSuffix (chars : List Char) : List Char :=
  let digits := chars.takeWhile isIntegerChar
  let suffix := chars.dropWhile isIntegerChar
  if digits ≠ [] ∧ asciiLower suffix ∈ intSuffixes then digits else chars

/-- Whether the characters start with the mark of a hexadecimal number. -/
def isHex : List Char → Bool
  | '0' :: 'x' :: _ => true
  | '0' :: 'X' :: _ => true
  | _ => false

/-- The constant without the suffix of a single-precision number. -/
def dropFloatSuffix (type : String) (chars : List Char) : List Char :=
  if !isHex chars && (chars.contains '.' || type = "float" || type = "double") &&
      (chars.getLast? = some 'f' || chars.getLast? = some 'F') then chars.dropLast
  else chars

/-- An octal number gets its mark spelled out. -/
def markOctal (chars : List Char) : List Char :=
  match chars with
  | '0' :: d :: rest => if (d :: rest).all Char.isDigit then '0' :: 'o' :: d :: rest else chars
  | _ => chars

/-- The text of a constant in the output. -/
def literalText (type value : String) : String :=
  String.ofList (markOctal (dropFloatSuffix type (dropIntSuffix value.toList)))

/-- The value of digits in a base, after an optional sign; none unless it fits 64 signed bits. -/
def integerValue? (base : Nat) (chars : List Char) : Option Int := do
  let (negative, digits) :=
    match chars with
    | '-' :: digits => (true, digits)
    | '+' :: digits => (false, digits)
    | digits => (false, digits)
  let magnitude ← if digits = [] then none else digitsValue? base digits
  int64? (if negative then -(magnitude : Int) else magnitude)

/-- The letters of integer suffixes. -/
def isSuffixChar (c : Char) : Bool := "uUlLzZ".toList.contains c

/-- The characters up to the last one that is no suffix letter. -/
def trimSuffix (chars : List Char) : List Char := (chars.reverse.dropWhile isSuffixChar).reverse

/-- The value of an integer's text: hexadecimal after `0x`, octal after another leading zero, and else decimal. -/
def integerText? (chars : List Char) : Option Int :=
  match trimSuffix chars with
  | '0' :: 'x' :: digits => integerValue? 16 digits
  | '0' :: 'X' :: digits => integerValue? 16 digits
  | '0' :: d :: digits => integerValue? 8 (d :: digits)
  | digits => integerValue? 10 digits

/-- Whether `part` occurs in the characters. -/
def containsPart (part : List Char) : List Char → Bool
  | [] => part.isEmpty
  | c :: rest => part.isPrefixOf (c :: rest) || containsPart part rest

/-- The value of an integer constant that fits 64 signed bits. -/
def Node.intValue? : Node → Option Int
  | constant type value => if containsPart "int".toList type.toList then integerText? value.toList else none
  | _ => none

end StubGen.CUnit
