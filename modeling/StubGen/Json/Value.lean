import StubGen.Number.Binary64

/-!
# JSON values

A document tells integers from other numbers and keeps the fields of an object in the order of their names.

* `Json.ofFields` puts fields into that order; of two fields with one name the later one counts.
* `Json.get?` looks a field up, and answers `none` on anything but an object.
-/

namespace StubGen

/-- A JSON value. -/
inductive Json where
  | null
  | bool (value : Bool)
  | int (value : Int)
  | float (value : Binary64)
  | text (value : String)
  | array (items : List Json)
  | object (fields : List (String × Json))
  deriving Inhabited

namespace Json

/-- Puts a field before the first greater name, in the place of a field of the same name. -/
def insertField (name : String) (value : Json) : List (String × Json) → List (String × Json)
  | [] => [(name, value)]
  | (other, kept) :: rest =>
    if name < other then (name, value) :: (other, kept) :: rest
    else if name = other then (name, value) :: rest
    else (other, kept) :: insertField name value rest

/-- The object with these fields, ordered by name. -/
def ofFields (fields : List (String × Json)) : Json :=
  .object (fields.foldl (fun sorted field => insertField field.1 field.2 sorted) [])

/-- The value of a field of an object. -/
def get? : Json → String → Option Json
  | .object fields, name => fields.lookup name
  | _, _ => none

/-- The text of a string. -/
def asText? : Json → Option String
  | .text value => some value
  | _ => none

/-- The items of an array. -/
def asArray? : Json → Option (List Json)
  | .array items => some items
  | _ => none

def isNull : Json → Bool
  | .null => true
  | _ => false

/-- The value of a field that is there and not null. -/
def present? (value : Json) (name : String) : Option Json :=
  (value.get? name).filter fun found => !found.isNull

@[simp] theorem get?_object (fields : List (String × Json)) (name : String) :
    (Json.object fields).get? name = fields.lookup name := rfl

theorem lookup_insertField_self (name : String) (value : Json) (fields : List (String × Json)) :
    (insertField name value fields).lookup name = some value := by
  induction fields with
  | nil => simp [insertField]
  | cons field rest ih =>
    obtain ⟨other, kept⟩ := field
    unfold insertField
    split
    · simp
    · split
      · simp
      · next hne =>
        have hbeq : (name == other) = false := by simpa using hne
        simp [List.lookup_cons, hbeq, ih]

end Json

end StubGen
