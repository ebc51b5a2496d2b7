import StubGen.Json.Value

/-!
# Parts of a value

The parts of a value together with the fact that they are smaller, which is what recursion over a document needs.
-/

namespace StubGen.Json

theorem sizeOf_lookup {fields : List (String × Json)} {name : String} {child : Json}
    (h : fields.lookup name = some child) : sizeOf child < sizeOf fields := by
  induction fields with
  | nil => simp at h
  | cons field rest ih =>
    obtain ⟨other, value⟩ := field
    rw [List.lookup_cons] at h
    split at h
    · injection h with h
      subst h
      simp
      omega
    · have := ih h
      simp
      omega

theorem sizeOf_get? {value child : Json} {name : String} (h : value.get? name = some child) :
    sizeOf child < sizeOf value := by
  unfold get? at h
  split at h
  · have := sizeOf_lookup h
    simp
    omega
  · simp at h

/-- A part of a value. -/
abbrev Part (value : Json) := { child : Json // sizeOf child < sizeOf value }

/-- A field of an object, unless it is null. -/
def part? (value : Json) (name : String) : Option (Part value) :=
  match h : value.get? name with
  | some child => if child.isNull then none else some ⟨child, sizeOf_get? h⟩
  | none => none

/-- The items of an array in a field; none if the field holds no array. -/
def parts (value : Json) (name : String) : List (Part value) :=
  match h : value.get? name with
  | some (.array items) =>
    items.attach.map fun ⟨item, mem⟩ =>
      ⟨item, by
        have inner := List.sizeOf_lt_of_mem mem
        have outer := sizeOf_get? h
        simp at outer
        omega⟩
  | _ => []

end StubGen.Json
