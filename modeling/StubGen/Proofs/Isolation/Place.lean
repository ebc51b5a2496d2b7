import StubGen.DeclFile.Reader

/-!
# Places in a document

Where a value stands in an object, and what becomes of the object when another value is put there.

* `Json.child?` finds the value at a place, and `Json.replace` puts another one there.
* `Json.get?_replace_of_ne`: nothing but the field of the place changes.
-/

namespace StubGen

/-- Where a value stands in an object: in a field, or in the array in a field. -/
inductive Place where
  | field (name : String)
  | item (name : String) (index : Nat)
  deriving DecidableEq, Repr

/-- The field of a place. -/
def Place.name : Place → String
  | field name => name
  | item name _ => name

@[simp] theorem Place.name_field (name : String) : (Place.field name).name = name := rfl

@[simp] theorem Place.name_item (name : String) (index : Nat) : (Place.item name index).name = name := rfl

namespace Json

/-- The items of the array in a field; none if the field holds no array. -/
def items (value : Json) (name : String) : List Json := ((value.get? name).bind asArray?).getD []

/-- The value at a place; a field that is null holds none. -/
def child? (value : Json) : Place → Option Json
  | .field name => value.present? name
  | .item name index => (value.items name)[index]?

/-- Puts a value in the place of the value of a field. -/
def setField (name : String) (value : Json) : List (String × Json) → List (String × Json)
  | [] => []
  | (other, kept) :: rest => if name = other then (other, value) :: rest else (other, kept) :: setField name value rest

/-- Puts a value in the place of the one at a place. -/
def replace (value : Json) (place : Place) (new : Json) : Json :=
  match value with
  | .object fields =>
    match place with
    | .field name => .object (setField name new fields)
    | .item name index => .object (setField name (.array ((value.items name).set index new)) fields)
  | other => other

/-- Puts a value in the place of the one at the end of a path. -/
def replaceAt (value : Json) : List Place → Json → Json
  | [], new => new
  | place :: path, new =>
    match value.child? place with
    | some child => value.replace place (child.replaceAt path new)
    | none => value

section

variable {value child new : Json} {name : String} {index : Nat} {place : Place}

private theorem lookup_setField_of_ne {other : String} (hne : other ≠ name) (fields : List (String × Json)) :
    (setField name new fields).lookup other = fields.lookup other := by
  induction fields with
  | nil => rfl
  | cons field rest ih =>
    obtain ⟨first, kept⟩ := field
    rw [setField]
    split
    · next heq => rw [List.lookup_cons, List.lookup_cons, ← heq, beq_false_of_ne hne]
    · rw [List.lookup_cons, List.lookup_cons, ih]

private theorem lookup_setField {kept : Json} {fields : List (String × Json)} (h : fields.lookup name = some kept) :
    (setField name new fields).lookup name = some new := by
  induction fields with
  | nil => cases h
  | cons field rest ih =>
    obtain ⟨first, other⟩ := field
    rw [setField]
    split
    · next heq => rw [List.lookup_cons, heq, beq_self_eq_true]
    · next hne =>
      rw [List.lookup_cons, beq_false_of_ne hne] at h ⊢
      exact ih h

/-- Nothing but the field of the place changes. -/
theorem get?_replace_of_ne (h : name ≠ place.name) : (value.replace place new).get? name = value.get? name := by
  cases value with
  | object fields => cases place <;> exact lookup_setField_of_ne h fields
  | _ => rfl

theorem get?_replace_field (h : value.child? (.field name) = some child) :
    (value.replace (.field name) new).get? name = some new := by
  obtain ⟨hget, -⟩ := Option.filter_eq_some_iff.mp h
  cases value with
  | object fields => exact lookup_setField hget
  | _ => cases hget

theorem present?_replace_field (h : value.child? (.field name) = some child) (hnew : new.isNull = false) :
    (value.replace (.field name) new).present? name = some new := by
  rw [present?, get?_replace_field h, Option.filter_some, hnew]
  rfl

theorem items_replace_item (h : value.child? (.item name index) = some child) :
    (value.replace (.item name index) new).items name = (value.items name).set index new := by
  have hlist : (value.items name)[index]? = some child := h
  cases value with
  | object fields =>
    cases hget : fields.lookup name with
    | none =>
      rw [items, get?_object, hget] at hlist
      cases hlist
    | some kept =>
      change (((setField name _ fields).lookup name).bind asArray?).getD [] = _
      rw [lookup_setField hget]
      rfl
  | _ => cases hlist

/-- What has a value at a place is an object, and stays one. -/
theorem isNull_replace (h : value.child? place = some child) : (value.replace place new).isNull = false := by
  cases value with
  | object fields => cases place <;> rfl
  | _ => cases place <;> cases h

theorem present?_replace_of_ne (h : name ≠ place.name) :
    (value.replace place new).present? name = value.present? name := by
  rw [present?, get?_replace_of_ne h, present?]

end

end Json

end StubGen
