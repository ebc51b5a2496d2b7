import StubGen.Toml.Value

/-!
# TOML documents

`parse?` reads a document, line by line, into one value: each line is a header, a key with a value, or neither.
-/

namespace StubGen.Toml

/-- The tables read so far, and the header whose table is open. -/
structure Reader where
  entries : Entries
  header : List String

namespace Reader

/-- Reads a header after its opening bracket. -/
def header? (reader : Reader) (chars : List Char) : Option (Reader × List Char) :=
  match chars with
  | '[' :: rest => do
    let ((path, last), rest) ← key? rest.length rest
    match rest with
    | ']' :: ']' :: rest => some (⟨← Item.openElement path last reader.entries, path ++ [last]⟩, rest)
    | _ => none
  | rest => do
    let ((path, last), rest) ← key? rest.length rest
    match rest with
    | ']' :: rest => some (⟨← Item.openTable path last reader.entries, path ++ [last]⟩, rest)
    | _ => none

/-- Reads a key with its value. -/
def pair? (reader : Reader) (chars : List Char) : Option (Reader × List Char) := do
  let ((path, last), rest) ← key? chars.length chars
  match rest with
  | '=' :: rest =>
    let rest := skipBlanks rest
    let (value, rest) ← value? (rest.length + 1) rest
    let entries ← Item.changeOpen reader.header (Item.insert path last value) reader.entries
    some ({ reader with entries := entries }, rest)
  | _ => none

/-- Reads the lines of a document, at most `fuel` of them. -/
def lines? : Nat → Reader → List Char → Option Reader
  | 0, _, _ => none
  | fuel + 1, reader, chars => do
    match ← skipLines? chars.length chars with
    | [] => some reader
    | c :: rest =>
      let (reader, rest) ← if c = '[' then reader.header? rest else reader.pair? (c :: rest)
      match ← skipComment? rest with
      | [] => some reader
      | rest => lines? fuel reader (← lineEnd? rest)

end Reader

/-- The value of a document, which may start with a byte order mark. -/
def parse? (text : String) : Option Json :=
  let chars :=
    match text.toList with
    | '\ufeff' :: rest => rest
    | chars => chars
  (Reader.lines? (chars.length + 1) ⟨[], []⟩ chars).map fun reader => Item.toJson (.table .defined reader.entries)

end StubGen.Toml
