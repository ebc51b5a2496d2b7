import StubGen.Json.Lexer
import StubGen.Number.Word
import StubGen.Toml.Moment
import StubGen.Toml.Table

/-!
# Keys and values of TOML

Each reader takes the characters at its place and gives what it has read with the characters after it.

* `key?` reads a dotted key, and `value?` a value.
* Strings are basic or literal, on one line or on many.
-/

namespace StubGen.Toml

def isBlank (c : Char) : Bool := c = ' ' || c = '\t'

/-- The characters after the blanks. -/
def skipBlanks (chars : List Char) : List Char := chars.dropWhile isBlank

/-- Control characters, which may stand neither in strings nor in comments. -/
def isControl (c : Char) : Bool := (c < ' ' && c ≠ '\t') || c = '\x7f'

/-- The characters after a line end. -/
def lineEnd? : List Char → Option (List Char)
  | '\n' :: rest => some rest
  | '\x0d' :: '\n' :: rest => some rest
  | _ => none

/-- The characters after blanks and a comment, at the end of a line or of the text. -/
def skipComment? (chars : List Char) : Option (List Char) :=
  match skipBlanks chars with
  | '#' :: rest =>
    let rest := rest.dropWhile fun c => !isControl c
    if rest.isEmpty || (lineEnd? rest).isSome then some rest else none
  | rest => some rest

/-- The characters after blanks, comments and line ends, which take at most `fuel` lines. -/
def skipLines? : Nat → List Char → Option (List Char)
  | 0, chars => some chars
  | fuel + 1, chars => do
    let rest ← skipComment? chars
    match lineEnd? rest with
    | some rest => skipLines? fuel rest
    | none => some rest

/-- The character of an escape after the backslash. -/
def escape? (chars : List Char) : Option (Char × List Char) :=
  let code (width : Nat) (rest : List Char) : Option (Char × List Char) :=
    if rest.length < width then none else (codePoint? (rest.take width)).map (·, rest.drop width)
  match chars with
  | 'b' :: rest => some ('\x08', rest)
  | 't' :: rest => some ('\t', rest)
  | 'n' :: rest => some ('\n', rest)
  | 'f' :: rest => some ('\x0c', rest)
  | 'r' :: rest => some ('\r', rest)
  | '"' :: rest => some ('"', rest)
  | '\\' :: rest => some ('\\', rest)
  | 'u' :: rest => code 4 rest
  | 'U' :: rest => code 8 rest
  | _ => none

/-- A basic string after its opening quote. -/
def basicString? : Nat → List Char → Option (List Char × List Char)
  | 0, _ => none
  | fuel + 1, chars =>
    match chars with
    | '"' :: rest => some ([], rest)
    | '\\' :: rest => do
      let (c, rest) ← escape? rest
      let (text, rest) ← basicString? fuel rest
      return (c :: text, rest)
    | c :: rest =>
      if isControl c then none
      else (basicString? fuel rest).map fun (text, rest) => (c :: text, rest)
    | [] => none

/-- A literal string after its opening quote. -/
def literalString? (chars : List Char) : Option (List Char × List Char) :=
  let text := chars.takeWhile fun c => c ≠ '\'' && !isControl c
  match chars.drop text.length with
  | '\'' :: rest => some (text, rest)
  | _ => none

/-- The quotes at the end of a string on many lines: three that end it, and up to two before them. -/
def closingQuotes? (quote : Char) (chars : List Char) : Option (List Char × List Char) :=
  let quotes := (chars.takeWhile (· = quote)).take 5
  if quotes.length < 3 then none else some (quotes.drop 3, chars.drop quotes.length)

/-- The characters after a backslash at the end of a line: blanks and line ends do not count. -/
def skipFold? (chars : List Char) : Option (List Char) :=
  match lineEnd? (skipBlanks chars) with
  | some rest => some (rest.dropWhile fun c => isBlank c || c = '\n' || c = '\r')
  | none => none

/-- A string on many lines after its opening quotes and first line end. -/
def longString? (quote : Char) : Nat → List Char → Option (List Char × List Char)
  | 0, _ => none
  | fuel + 1, chars =>
    match closingQuotes? quote chars, chars with
    | some closed, _ => some closed
    | none, [] => none
    | none, c :: rest =>
      if c = '\\' && quote = '"' then
        match skipFold? rest with
        | some rest => longString? quote fuel rest
        | none => do
          let (c, rest) ← escape? rest
          let (text, rest) ← longString? quote fuel rest
          return (c :: text, rest)
      else
        match lineEnd? (c :: rest) with
        | some rest => (longString? quote fuel rest).map fun (text, rest) => ('\n' :: text, rest)
        | none =>
          if isControl c then none else (longString? quote fuel rest).map fun (text, rest) => (c :: text, rest)

/-- The characters after a line end at the front, if there is one. -/
def dropLineEnd (chars : List Char) : List Char := (lineEnd? chars).getD chars

/-- A string of any form. -/
def string? (chars : List Char) : Option (String × List Char) :=
  let text :=
    match chars with
    | '"' :: '"' :: '"' :: rest => longString? '"' (rest.length + 1) (dropLineEnd rest)
    | '\'' :: '\'' :: '\'' :: rest => longString? '\'' (rest.length + 1) (dropLineEnd rest)
    | '"' :: rest => basicString? (rest.length + 1) rest
    | '\'' :: rest => literalString? rest
    | _ => none
  text.map fun (text, rest) => (String.ofList text, rest)

/-- The characters of keys without quotes. -/
def isBareChar (c : Char) : Bool := c.isAlphanum || c = '_' || c = '-'

/-- A key between dots. -/
def simpleKey? (chars : List Char) : Option (String × List Char) :=
  match chars with
  | '"' :: rest => (basicString? (rest.length + 1) rest).map fun (text, rest) => (String.ofList text, rest)
  | '\'' :: rest => (literalString? rest).map fun (text, rest) => (String.ofList text, rest)
  | chars =>
    let name := chars.takeWhile isBareChar
    if name.isEmpty then none else some (String.ofList name, chars.drop name.length)

/-- A dotted key, with the blanks after it; the path is followed by the last key. -/
def key? : Nat → List Char → Option ((List String × String) × List Char)
  | 0, _ => none
  | fuel + 1, chars => do
    let (first, rest) ← simpleKey? (skipBlanks chars)
    match skipBlanks rest with
    | '.' :: rest =>
      let ((path, last), rest) ← key? fuel rest
      return ((first :: path, last), rest)
    | rest => return (([], first), rest)

/-- The digits of a number without the low lines between them; none where a low line has no digit on a side. -/
def plainDigits? (isDigit : Char → Bool) (chars : List Char) : Option (List Char) :=
  match chars with
  | [] => none
  | [c] => if isDigit c then some [c] else none
  | c :: '_' :: rest => if isDigit c then (plainDigits? isDigit rest).map (c :: ·) else none
  | c :: rest => if isDigit c then (plainDigits? isDigit rest).map (c :: ·) else none

/-- The integer that digits are in a base, within 64 signed bits. -/
def integer? (negative : Bool) (base : Nat) (digits : List Char) : Option Json := do
  let magnitude ← digitsValue? base digits
  (int64? (if negative then -(magnitude : Int) else magnitude)).map .int

/-- The digits of a decimal number; a zero at the front stands alone. -/
def decimalDigits? (chars : List Char) : Option (List Char) := do
  let digits ← plainDigits? Char.isDigit chars
  if digits.head? = some '0' && 1 < digits.length then none else some digits

/-- A decimal number with a fraction or an exponent, after its sign. -/
def float? (negative : Bool) (chars : List Char) : Option Json := do
  let whole := chars.takeWhile fun c => c.isDigit || c = '_'
  let wholeDigits ← decimalDigits? whole
  let rest := chars.drop whole.length
  let (fraction, rest) ←
    match rest with
    | '.' :: rest =>
      let places := rest.takeWhile fun c => c.isDigit || c = '_'
      (plainDigits? Char.isDigit places).map fun digits => ('.' :: digits, rest.drop places.length)
    | rest => some ([], rest)
  let exponent ←
    match rest with
    | [] => some []
    | mark :: rest =>
      if mark ≠ 'e' && mark ≠ 'E' then none
      else
        match rest with
        | '-' :: rest => (plainDigits? Char.isDigit rest).map ('e' :: '-' :: ·)
        | '+' :: rest => (plainDigits? Char.isDigit rest).map ('e' :: ·)
        | rest => (plainDigits? Char.isDigit rest).map ('e' :: ·)
  Json.number? ((if negative then ['-'] else []) ++ wholeDigits ++ fraction ++ exponent)

/-- A number. -/
def number? (chars : List Char) : Option Json :=
  match chars with
  | '0' :: 'x' :: rest => (plainDigits? (fun c => (digitValue? 16 c).isSome) rest).bind (integer? false 16)
  | '0' :: 'o' :: rest => (plainDigits? (fun c => (digitValue? 8 c).isSome) rest).bind (integer? false 8)
  | '0' :: 'b' :: rest => (plainDigits? (fun c => (digitValue? 2 c).isSome) rest).bind (integer? false 2)
  | chars =>
    let (negative, digits) :=
      match chars with
      | '-' :: rest => (true, rest)
      | '+' :: rest => (false, rest)
      | rest => (false, rest)
    if digits.all fun c => c.isDigit || c = '_' then (decimalDigits? digits).bind (integer? negative 10)
    else float? negative digits

/-- The characters of words and numbers. -/
def isWordChar (c : Char) : Bool := c.isAlphanum || c = '_' || c = '+' || c = '-' || c = '.'

/-- The words for numbers that are infinite, or none at all. -/
def specialNumbers : List String := ["inf", "+inf", "-inf", "nan", "+nan", "-nan"]

/-- A word or a number.  A special number has no form in JSON, and zero stands for it. -/
def word? (chars : List Char) : Option (Json × List Char) :=
  let word := chars.takeWhile isWordChar
  let value :=
    match String.ofList word with
    | "true" => some (Json.bool true)
    | "false" => some (Json.bool false)
    | text => if text ∈ specialNumbers then some (Json.float default) else number? word
  value.map (·, chars.drop word.length)

/-- The key under which a date or a time has its text.  Where a table is expected, it is one with this key. -/
def momentKey : String := "$__toml_private_datetime"

/-- A date, a time, a word or a number. -/
def scalar? (chars : List Char) : Option (Json × List Char) :=
  match skipMoment? chars with
  | some rest =>
    let text := chars.take (chars.length - rest.length)
    some (.ofFields [(momentKey, .text (String.ofList text))], rest)
  | none => word? chars

mutual

/-- A value. -/
def value? (fuel : Nat) (chars : List Char) : Option (Json × List Char) :=
  match fuel with
  | 0 => none
  | fuel + 1 =>
    match chars with
    | '[' :: rest => items? fuel rest
    | '\x7b' :: rest =>
      match skipBlanks rest with
      | '\x7d' :: rest => some (Json.ofFields [], rest)
      | rest => fields? fuel [] rest
    | c :: rest =>
      if c = '"' || c = '\'' then (string? (c :: rest)).map fun (text, rest) => (.text text, rest)
      else scalar? (c :: rest)
    | [] => none

/-- The items of an array up to its closing bracket. -/
def items? (fuel : Nat) (chars : List Char) : Option (Json × List Char) :=
  match fuel with
  | 0 => none
  | fuel + 1 => do
    match ← skipLines? chars.length chars with
    | ']' :: rest => some (.array [], rest)
    | chars =>
      let (item, rest) ← value? fuel chars
      match ← skipLines? rest.length rest with
      | ']' :: rest => some (.array [item], rest)
      | ',' :: rest =>
        match ← items? fuel rest with
        | (.array items, rest) => some (.array (item :: items), rest)
        | _ => none
      | _ => none

/-- The fields of an inline table up to its closing brace, after those in `entries`. -/
def fields? (fuel : Nat) (entries : Entries) (chars : List Char) : Option (Json × List Char) :=
  match fuel with
  | 0 => none
  | fuel + 1 => do
    let ((path, last), rest) ← key? chars.length chars
    match rest with
    | '=' :: rest =>
      let (value, rest) ← value? fuel (skipBlanks rest)
      let entries ← Item.insert path last value entries
      match skipBlanks rest with
      | '\x7d' :: rest => some (Item.toJson (.table .defined entries), rest)
      | ',' :: rest => fields? fuel entries rest
      | _ => none
    | _ => none

end

end StubGen.Toml
