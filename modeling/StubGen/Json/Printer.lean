import StubGen.Json.Value

/-!
# Writing JSON text

The compact form: no blanks, fields in the order of their names, and escapes for quotes, backslashes and control
characters only.
-/

namespace StubGen.Json

/-- The lower-case hexadecimal digit of a value below 16. -/
def hexDigit (value : Nat) : Char := (Nat.toDigits 16 value).getLastD '0'

/-- A character inside a string. -/
def escapeChar (c : Char) : List Char :=
  match c with
  | '"' => ['\\', '"']
  | '\\' => ['\\', '\\']
  | '\n' => ['\\', 'n']
  | '\r' => ['\\', 'r']
  | '\t' => ['\\', 't']
  | '\x08' => ['\\', 'b']
  | '\x0c' => ['\\', 'f']
  | c =>
    if c < ' ' then ['\\', 'u', '0', '0', hexDigit (c.toNat / 16), hexDigit (c.toNat % 16)] else [c]

/-- A string in quotes. -/
def quote (text : String) : String :=
  "\"" ++ String.ofList (text.toList.flatMap escapeChar) ++ "\""

mutual

/-- The compact text of a value. -/
def compress : Json → String
  | .null => "null"
  | .bool value => if value then "true" else "false"
  | .int value => toString value
  | .float value => value.text
  | .text value => quote value
  | .array items => "[" ++ ",".intercalate (compressItems items) ++ "]"
  | .object fields => "\x7b" ++ ",".intercalate (compressFields fields) ++ "\x7d"
termination_by structural value => value

def compressItems : List Json → List String
  | [] => []
  | item :: rest => compress item :: compressItems rest
termination_by structural items => items

def compressFields : List (String × Json) → List String
  | [] => []
  | (name, value) :: rest => (quote name ++ ":" ++ compress value) :: compressFields rest
termination_by structural fields => fields

end

end StubGen.Json
