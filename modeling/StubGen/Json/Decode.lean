import StubGen.Json.Value
import StubGen.Text.Quoted

/-!
# Why a value cannot be decoded

A decoder looks at the fields of an object in the order of their names, skips the ones it does not know, and
reports a missing field only after all that are there.

* `DecodeError.message` words the causes.
* `expectText`, `expectBool`, `expectArray` decode the simple values.
-/

namespace StubGen

/-- Why a JSON value is not of the expected form. -/
inductive DecodeError where
  /-- The value found is none of what was expected. -/
  | wrongType (found : Json) (expected : String)
  | missingField (name : String)
  /-- The tag names no variant. -/
  | unknownVariant (tag : String) (known : List String)
  /-- The tag is no index of a variant. -/
  | noVariantAt (index : Nat) (count : Nat)
  /-- An array has not as many items as expected. -/
  | wrongLength (length : Nat) (expected : String)
  deriving Inhabited

/-- A result of decoding. -/
abbrev Decoded (α : Type) := Except DecodeError α

/-- A value that two steps arrive at is what the second makes of the value of the first. -/
theorem exists_of_bind {ε α β : Type} {first : Except ε α} {next : α → Except ε β} {value : β}
    (h : (first >>= next) = .ok value) : ∃ found, first = .ok found ∧ next found = .ok value := by
  cases first with
  | error cause => cases h
  | ok found => exact ⟨found, rfl, h⟩

namespace Json

/-- How a message names a value that was found in place of another. -/
def describe : Json → String
  | .null => "null"
  | .bool value => "boolean `" ++ (if value then "true" else "false") ++ "`"
  | .int value => "integer `" ++ toString value ++ "`"
  | .float value => "floating point `" ++ value.text ++ "`"
  | .text value => "string " ++ quoted value
  | .array _ => "sequence"
  | .object _ => "map"

def expectText : Json → Decoded String
  | .text value => .ok value
  | found => .error (.wrongType found "a string")

def expectBool : Json → Decoded Bool
  | .bool value => .ok value
  | found => .error (.wrongType found "a boolean")

def expectArray : Json → Decoded (List Json)
  | .array items => .ok items
  | found => .error (.wrongType found "a sequence")

def expectTexts (value : Json) : Decoded (List String) := do (← value.expectArray).mapM expectText

/-- Null stands for an absent text. -/
def expectOptionalText : Json → Decoded (Option String)
  | .null => .ok none
  | found => found.expectText.map some

/-- Reads the fields of an object one after the other into a record that starts out with its defaults.  An array has
the values of the fields in the order of `names`; the fields that it does not reach keep their defaults. -/
def expectRecord {α : Type} (expected : String) (names : List String) (start : α)
    (read : α → String → Json → Decoded α) : Json → Decoded α
  | .object fields => fields.foldlM (fun record field => read record field.1 field.2) start
  | .array items => do
    let record ← (names.zip items).foldlM (fun record field => read record field.1 field.2) start
    if names.length < items.length then .error (.wrongLength items.length "fewer elements in array") else return record
  | found => .error (.wrongType found expected)

end Json

namespace DecodeError

/-- The wording of a cause. -/
def message : DecodeError → String
  | .wrongType found expected => "invalid type: " ++ found.describe ++ ", expected " ++ expected
  | .missingField name => "missing field `" ++ name ++ "`"
  | .unknownVariant tag known =>
    "unknown variant `" ++ tag ++ "`, expected one of " ++
      ", ".intercalate (known.map fun name => "`" ++ name ++ "`")
  | .wrongLength length expected => "invalid length " ++ toString length ++ ", expected " ++ expected
  | .noVariantAt index count =>
    "invalid value: integer `" ++ toString index ++ "`, expected variant index 0 <= i < " ++ toString count

end DecodeError

end StubGen
