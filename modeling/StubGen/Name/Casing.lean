import StubGen.Name.Reserved
import StubGen.Text.Case

/-!
# Casing of names

* `snakeCase` writes a name of mixed case in lower case, with a low line before each word.
* `pascalCase` joins the words between low lines, each with a capital.
* `Recased` is a name as the output declares it, together with the declared name where the two differ.
-/

namespace StubGen

/-- Whether a character is a lower-case ASCII letter. -/
def isAsciiLower (c : Char) : Bool := 'a' ≤ c && c ≤ 'z'

/-- Whether a character is an upper-case ASCII letter. -/
def isAsciiUpper (c : Char) : Bool := 'A' ≤ c && c ≤ 'Z'

/-- Where a name is being read: between words, before the capital of one, or among the letters after it. -/
inductive WordPlace where
  | between
  | capital
  | letters
  deriving DecidableEq

/-- Whether the characters begin with a capital and a lower-case letter. -/
def startsWord : List Char → Bool
  | upper :: lower :: _ => isAsciiUpper upper && isAsciiLower lower
  | _ => false

/-- Puts a low line between a character and a capitalised word that follows it.  The letters of such a word are
not looked at again. -/
def splitWords : WordPlace → List Char → List Char
  | _, [] => []
  | .capital, c :: rest => c :: splitWords .letters rest
  | place, c :: rest =>
    if place = .letters ∧ isAsciiLower c then c :: splitWords .letters rest
    else if c ≠ '\n' ∧ startsWord rest then c :: '_' :: splitWords .capital rest
    else c :: splitWords .between rest

/-- Whether the characters begin with a low line and a capital. -/
def startsLowCapital : List Char → Bool
  | low :: upper :: _ => low = '_' && isAsciiUpper upper
  | _ => false

/-- Makes one low line of two that stand before a capital. -/
def joinLows : List Char → List Char
  | [] => []
  | c :: rest => if c = '_' ∧ startsLowCapital rest then joinLows rest else c :: joinLows rest

/-- Puts a low line between a lower-case letter or digit and a capital. -/
def splitHumps : List Char → List Char
  | [] => []
  | c :: rest =>
    if (isAsciiLower c || c.isDigit) ∧ rest.head?.any isAsciiUpper then c :: '_' :: splitHumps rest
    else c :: splitHumps rest

/-- The name in lower case with a low line before each word; a name that lacks a case is kept. -/
def snakeChars (chars : List Char) : List Char :=
  if chars.any CodeSet.uppercase.contains && chars.any CodeSet.lowercase.contains then
    lowerText (splitHumps (joinLows (splitWords .between chars)))
  else chars

/-- The runs between low lines that are not empty. -/
def wordsOf (chars : List Char) : List (List Char) := (chars.splitOn '_').filter (· ≠ [])

/-- The word with a capital. -/
def capitalise : List Char → List Char
  | [] => []
  | c :: rest => upperChars c ++ rest

/-- The words between low lines, capitalised and joined, after the low lines at the front. -/
def pascalChars (chars : List Char) : List Char :=
  chars.takeWhile (· = '_') ++ (wordsOf (chars.dropWhile (· = '_'))).flatMap capitalise

def snakeCase (name : String) : String := String.ofList (snakeChars name.toList)

def pascalCase (name : String) : String := String.ofList (pascalChars name.toList)

/-- A name as the output declares it; `declared` is the name in the source where the two differ. -/
structure Recased where
  name : String
  declared : Option String
  deriving DecidableEq, Repr

namespace Recased

/-- The escaped form of a name that `converted` is made from. -/
def ofConverted (declared converted : String) : Recased :=
  let name := escapeName converted
  ⟨name, if name = declared then none else some declared⟩

/-- A value's name. -/
def snake (declared : String) : Recased := ofConverted declared (snakeCase declared)

/-- A type's name. -/
def pascal (declared : String) : Recased := ofConverted declared (pascalCase declared)

theorem declared_eq_none_iff (declared converted : String) :
    (ofConverted declared converted).declared = none ↔ (ofConverted declared converted).name = declared := by
  simp [ofConverted]

end Recased

end StubGen
