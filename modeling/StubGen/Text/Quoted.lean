import StubGen.Text.Property

/-!
# Texts quoted for messages

A quoted text shows every character: quotes, backslashes and the common control characters have an escape of two
characters, and what has no visible form of its own is given by its code point.
-/

namespace StubGen

/-- Whether a character is shown as it is. -/
def isShown (c : Char) : Bool :=
  c = ' ' || !(CodeSet.unprintable.contains c || CodeSet.graphemeExtend.contains c)

/-- A character inside quotes. -/
def quotedChar (c : Char) : List Char :=
  match c with
  | '"' => ['\\', '"']
  | '\\' => ['\\', '\\']
  | '\n' => ['\\', 'n']
  | '\r' => ['\\', 'r']
  | '\t' => ['\\', 't']
  | '\x00' => ['\\', '0']
  | c => if isShown c then [c] else '\\' :: 'u' :: '\x7b' :: Nat.toDigits 16 c.toNat ++ ['\x7d']

/-- A text in quotes. -/
def quoted (text : String) : String :=
  "\"" ++ String.ofList (text.toList.flatMap quotedChar) ++ "\""

end StubGen
