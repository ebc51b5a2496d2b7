import StubGen.Json.Lexer

/-!
# Reading JSON text

A stack machine over the tokens.  Each array or object that is still open is a `Frame` on the stack, so that a
limit on nesting is a limit on the height of the stack.
-/

namespace StubGen.Json

/-- An array or object that is still open: its parts so far, last one first. -/
inductive Frame where
  | items (parts : List Json)
  | members (parts : List (String × Json)) (name : String)

/-- What may come next. -/
inductive Expected where
  | value
  | valueOrClose
  | name
  | nameOrClose
  | colon
  | commaOrClose
  | nothing

/-- The parser's state.  The value is the whole document, once it is complete. -/
structure Parser where
  stack : List Frame
  expected : Expected
  value : Json

namespace Parser

/-- Adds a finished value to the innermost open array or object. -/
def add (stack : List Frame) (value : Json) : Parser :=
  match stack with
  | [] => ⟨[], .nothing, value⟩
  | .items parts :: rest => ⟨.items (value :: parts) :: rest, .commaOrClose, .null⟩
  | .members parts name :: rest => ⟨.members ((name, value) :: parts) name :: rest, .commaOrClose, .null⟩

/-- Opens an array or object, unless as many as `limit` are open. -/
def descend (limit : Option Nat) (stack : List Frame) (frame : Frame) (expected : Expected) : Option Parser :=
  if limit.all fun most => stack.length < most then some ⟨frame :: stack, expected, .null⟩ else none

/-- Reads the first token of a value. -/
def beginValue (limit : Option Nat) (stack : List Frame) : Token → Option Parser
  | .scalar value => some (add stack value)
  | .openArray => descend limit stack (.items []) .valueOrClose
  | .openObject => descend limit stack (.members [] "") .nameOrClose
  | _ => none

/-- Reads the name of a field. -/
def beginField (stack : List Frame) : Token → Option Parser
  | .scalar (.text name) =>
    match stack with
    | .members parts _ :: rest => some ⟨.members parts name :: rest, .colon, .null⟩
    | _ => none
  | _ => none

/-- Reads the bracket that ends the innermost array or object. -/
def close (stack : List Frame) : Token → Option Parser
  | .closeArray =>
    match stack with
    | .items parts :: rest => some (add rest (.array parts.reverse))
    | _ => none
  | .closeObject =>
    match stack with
    | .members parts _ :: rest => some (add rest (Json.ofFields parts.reverse))
    | _ => none
  | _ => none

def step (limit : Option Nat) (parser : Parser) (token : Token) : Option Parser :=
  match parser.expected, token with
  | .value, token => beginValue limit parser.stack token
  | .valueOrClose, .closeArray => close parser.stack .closeArray
  | .valueOrClose, token => beginValue limit parser.stack token
  | .name, token => beginField parser.stack token
  | .nameOrClose, .closeObject => close parser.stack .closeObject
  | .nameOrClose, token => beginField parser.stack token
  | .colon, .colon => some { parser with expected := .value }
  | .commaOrClose, .comma =>
    match parser.stack with
    | .items _ :: _ => some { parser with expected := .value }
    | .members _ _ :: _ => some { parser with expected := .name }
    | [] => none
  | .commaOrClose, token => close parser.stack token
  | _, _ => none

end Parser

/-- The value of a JSON text in which at most `limit` arrays and objects are open at once. -/
def parse? (limit : Option Nat) (text : String) : Option Json := do
  let parser ← (← tokens? text).foldlM (Parser.step limit) ⟨[], .value, .null⟩
  match parser.expected with
  | .nothing => some parser.value
  | _ => none

end StubGen.Json
