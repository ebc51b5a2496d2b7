import StubGen.Json.Value
import StubGen.Number.Digits

/-!
# Tokens of JSON text

The lexer is an automaton over the characters: `Lexer.step` reads one character, and `Json.tokens?` runs it over
a text.  A word (a number or a name) ends at the first character that cannot belong to one, so a malformed number
is refused as a whole by `number?`.
-/

namespace StubGen.Json

/-- A token: a mark of punctuation, or a value without parts. -/
inductive Token where
  | openArray
  | closeArray
  | openObject
  | closeObject
  | comma
  | colon
  | scalar (value : Json)

/-- The blanks allowed between tokens. -/
def isBlank (c : Char) : Bool := c = ' ' ∨ c = '\t' ∨ c = '\n' ∨ c = '\r'

/-- The characters of numbers and names. -/
def isWordChar (c : Char) : Bool := c.isAlphanum ∨ c = '+' ∨ c = '-' ∨ c = '.'

/-- The mark of punctuation that a character is. -/
def punctuation? : Char → Option Token
  | '[' => some .openArray
  | ']' => some .closeArray
  | '\x7b' => some .openObject
  | '\x7d' => some .closeObject
  | ',' => some .comma
  | ':' => some .colon
  | _ => none

/-- Appends a digit to a significand, unless it leaves the range of 64-bit words. -/
def absorbDigit? (significand : Nat) (c : Char) : Option Nat :=
  let next := significand * 10 + (c.toNat - '0'.toNat)
  if next < 0x10000000000000000 then some next else none

/-- The significand of a run of digits, with the digits left over once it would leave the range of words. -/
def absorbDigits (significand : Nat) : List Char → Nat × List Char
  | [] => (significand, [])
  | c :: rest =>
    match absorbDigit? significand c with
    | some next => absorbDigits next rest
    | none => (significand, c :: rest)

/-- The exponent part of a number: nothing, or a mark, a sign and digits. -/
def exponentPart? : List Char → Option Int
  | [] => some 0
  | mark :: rest =>
    if mark = 'e' ∨ mark = 'E' then
      let (negative, digits) :=
        match rest with
        | '-' :: digits => (true, digits)
        | '+' :: digits => (false, digits)
        | digits => (false, digits)
      if digits = [] then none
      else (digitsValue? 10 digits).map fun value => if negative then -(value : Int) else value
    else none

/-- A number: an integer when it has neither fraction nor exponent and fits 64 bits, signed or not, and else the
finite binary number next to it.  Digits beyond the range of words only move the point. -/
def number? (chars : List Char) : Option Json :=
  let (negative, unsigned) :=
    match chars with
    | '-' :: rest => (true, rest)
    | rest => (false, rest)
  let whole := unsigned.takeWhile Char.isDigit
  let rest := unsigned.dropWhile Char.isDigit
  if whole = [] ∨ (whole.head? = some '0' ∧ 1 < whole.length) then none
  else
    let (significand, dropped) := absorbDigits 0 whole
    let float (significand : Nat) (exponent : Int) : Option Json :=
      (Binary64.ofDecimal negative significand exponent).map .float
    match rest with
    | [] =>
      let value : Int := if negative then -(significand : Int) else significand
      if dropped = [] ∧ -0x8000000000000000 ≤ value ∧ !(negative && significand == 0) then some (.int value)
      else float significand dropped.length
    | '.' :: rest =>
      let places := rest.takeWhile Char.isDigit
      if places = [] then none
      else
        let (significand, unread) := absorbDigits significand places
        let shift : Int := (dropped.length : Int) - ((places.length - unread.length : Nat) : Int)
        (exponentPart? (rest.dropWhile Char.isDigit)).bind fun exponent => float significand (shift + exponent)
    | rest => (exponentPart? rest).bind fun exponent => float significand (dropped.length + exponent)

/-- A word is a name of a constant or a number. -/
def word? (chars : List Char) : Option Json :=
  match String.ofList chars with
  | "null" => some .null
  | "true" => some (.bool true)
  | "false" => some (.bool false)
  | _ => number? chars

/-- The character of a high and a low surrogate unit. -/
def surrogatePair? (high low : Nat) : Option Char :=
  if 0xD800 ≤ high ∧ high < 0xDC00 ∧ 0xDC00 ≤ low ∧ low < 0xE000 then
    some (Char.ofNat (0x10000 + (high - 0xD800) * 0x400 + (low - 0xDC00)))
  else none

/-- Whether a 16-bit unit is half of a character. -/
def isSurrogate (unit : Nat) : Bool := 0xD800 ≤ unit ∧ unit < 0xE000

/-- The character of a one-letter escape. -/
def escape? : Char → Option Char
  | '"' => some '"'
  | '\\' => some '\\'
  | '/' => some '/'
  | 'b' => some '\x08'
  | 'f' => some '\x0c'
  | 'n' => some '\n'
  | 'r' => some '\r'
  | 't' => some '\t'
  | _ => none

/-- A piece of a string: a character, or a unit written in hexadecimal. -/
inductive Piece where
  | char (c : Char)
  | unit (value : Nat)

/-- The pieces of the text between two quotes; control characters have to be escaped. -/
def pieces? : List Char → Option (List Piece)
  | [] => some []
  | '\\' :: 'u' :: a :: b :: c :: d :: rest => do return .unit (← digitsValue? 16 [a, b, c, d]) :: (← pieces? rest)
  | '\\' :: c :: rest => do return .char (← escape? c) :: (← pieces? rest)
  | c :: rest => if c = '\\' ∨ c < ' ' then none else do return .char c :: (← pieces? rest)

/-- The characters of the pieces; surrogate units come in pairs. -/
def joinUnits? : List Piece → Option (List Char)
  | [] => some []
  | .unit high :: .unit low :: rest =>
    if isSurrogate high then do return (← surrogatePair? high low) :: (← joinUnits? rest)
    else do return Char.ofNat high :: (← joinUnits? (.unit low :: rest))
  | .unit value :: rest => if isSurrogate value then none else do return Char.ofNat value :: (← joinUnits? rest)
  | .char c :: rest => do return c :: (← joinUnits? rest)

/-- The text between two quotes with its escapes resolved. -/
def unescape? (chars : List Char) : Option (List Char) := (pieces? chars).bind joinUnits?

/-- What the lexer has begun to read. -/
inductive Pending where
  | nothing
  /-- A word, last character first. -/
  | word (chars : List Char)
  /-- The text after a quote, last character first, and whether the next character is escaped. -/
  | quoted (chars : List Char) (escaped : Bool)

/-- The lexer's state: what it has begun, and the tokens before that, last one first. -/
structure Lexer where
  pending : Pending
  tokens : List Token

namespace Lexer

/-- Reads a character that belongs to no word or string begun before. -/
def start (tokens : List Token) (c : Char) : Option Lexer :=
  if isBlank c then some ⟨.nothing, tokens⟩
  else if c = '"' then some ⟨.quoted [] false, tokens⟩
  else if isWordChar c then some ⟨.word [c], tokens⟩
  else (punctuation? c).map fun token => ⟨.nothing, token :: tokens⟩

/-- Ends the word that has been begun. -/
def endWord (chars : List Char) (tokens : List Token) : Option (List Token) :=
  (word? chars.reverse).map fun value => .scalar value :: tokens

def step (lexer : Lexer) (c : Char) : Option Lexer :=
  match lexer.pending with
  | .nothing => start lexer.tokens c
  | .word chars =>
    if isWordChar c then some ⟨.word (c :: chars), lexer.tokens⟩
    else (endWord chars lexer.tokens).bind fun tokens => start tokens c
  | .quoted chars true => some ⟨.quoted (c :: chars) false, lexer.tokens⟩
  | .quoted chars false =>
    if c = '"' then
      (unescape? chars.reverse).map fun text => ⟨.nothing, .scalar (.text (String.ofList text)) :: lexer.tokens⟩
    else some ⟨.quoted (c :: chars) (c = '\\'), lexer.tokens⟩

/-- The tokens at the end of the text, in order; none inside a string. -/
def finish (lexer : Lexer) : Option (List Token) :=
  match lexer.pending with
  | .nothing => some lexer.tokens.reverse
  | .word chars => (endWord chars lexer.tokens).map List.reverse
  | .quoted _ _ => none

end Lexer

/-- The tokens of a text. -/
def tokens? (text : String) : Option (List Token) :=
  (text.toList.foldlM Lexer.step ⟨.nothing, []⟩).bind Lexer.finish

end StubGen.Json
