import StubGen.Options
import StubGen.Proofs.Dump.Encoding

/-!
# Abridged values

A value abridges another one when it is that value with fields left out at any depth, as far as they hold their
defaults, and with further fields put in.

* `Json.Abridges defaults full json` says so; `defaults` has the default of each field of `full`, and a field without
  one has to be written.
* `Json.IsCodec` holds of a reader and a writer if the reader takes the abridged forms of what is written.
* `isCodec_bool`, `isCodec_text`, `isCodec_optionalText` and `IsCodec.array` are the codecs of fields.
-/

namespace StubGen

namespace Json

/-! ### Fields in the order of their names -/

theorem mem_of_lookup {name : String} {value : Json} {entries : List (String × Json)}
    (h : entries.lookup name = some value) : (name, value) ∈ entries := by
  obtain ⟨before, after, rfl, -⟩ := List.lookup_eq_some_iff.mp h
  exact List.mem_append_right _ List.mem_cons_self

theorem lookup_eq_none_of_not_mem {name : String} {entries : List (String × Json)}
    (h : name ∉ entries.map Prod.fst) : entries.lookup name = none := by
  cases hlookup : entries.lookup name with
  | none => rfl
  | some value => exact absurd (List.mem_map_of_mem (mem_of_lookup hlookup)) h

theorem lookup_insertField_of_ne {name other : String} (hne : other ≠ name) (value : Json)
    (fields : List (String × Json)) : (insertField name value fields).lookup other = fields.lookup other := by
  have hskip : (other == name) = false := beq_false_of_ne hne
  induction fields with
  | nil => rw [insertField, List.lookup_cons, hskip]
  | cons field rest ih =>
    obtain ⟨key, kept⟩ := field
    unfold insertField
    split
    · rw [List.lookup_cons, hskip]
    · split
      · next hkey =>
        subst hkey
        simp [List.lookup_cons, hskip]
      · rw [List.lookup_cons, List.lookup_cons, ih]

theorem mem_insertField {name : String} {value : Json} {fields : List (String × Json)} {entry : String × Json}
    (h : entry ∈ insertField name value fields) : entry = (name, value) ∨ entry ∈ fields := by
  induction fields with
  | nil => simpa [insertField] using h
  | cons field rest ih =>
    obtain ⟨key, kept⟩ := field
    unfold insertField at h
    split at h
    · exact List.mem_cons.mp h
    · split at h
      · rcases List.mem_cons.mp h with h | h
        · exact Or.inl h
        · exact Or.inr (List.mem_cons_of_mem _ h)
      · rcases List.mem_cons.mp h with h | h
        · exact Or.inr (h ▸ List.mem_cons_self)
        · exact (ih h).imp_right (List.mem_cons_of_mem _)

/-- The names of the fields increase. -/
def IsOrdered (fields : List (String × Json)) : Prop := fields.Pairwise fun first second => first.1 < second.1

theorem IsOrdered.insertField {fields : List (String × Json)} (h : IsOrdered fields) (name : String) (value : Json) :
    IsOrdered (insertField name value fields) := by
  induction fields with
  | nil => exact List.pairwise_singleton _ _
  | cons field rest ih =>
    obtain ⟨key, kept⟩ := field
    obtain ⟨hkey, hrest⟩ := List.pairwise_cons.mp h
    unfold Json.insertField
    split
    · next hlt =>
      refine List.pairwise_cons.mpr ⟨fun entry hentry => ?_, h⟩
      rcases List.mem_cons.mp hentry with rfl | hentry
      · exact hlt
      · exact String.lt_trans hlt (hkey entry hentry)
    · split
      · next heq =>
        subst heq
        exact List.pairwise_cons.mpr ⟨hkey, hrest⟩
      · next hnot hne =>
        have hlt : key < name := by
          by_cases hlt : key < name
          · exact hlt
          · exact absurd (String.le_antisymm (String.not_lt.mp hlt) (String.not_lt.mp hnot)) hne
        refine List.pairwise_cons.mpr ⟨fun entry hentry => ?_, ih hrest⟩
        rcases mem_insertField hentry with rfl | hentry
        · exact hlt
        · exact hkey entry hentry

theorem IsOrdered.nodup {fields : List (String × Json)} (h : IsOrdered fields) : (fields.map Prod.fst).Nodup := by
  refine List.pairwise_map.mpr (h.imp fun {first second} hlt heq => ?_)
  rw [heq] at hlt
  exact String.lt_irrefl _ hlt

/-- A field is found in an object made of fields with different names. -/
theorem get?_ofFields {entries : List (String × Json)} (hnames : (entries.map Prod.fst).Nodup) (name : String) :
    (ofFields entries).get? name = entries.lookup name := by
  suffices h : ∀ sorted : List (String × Json),
      (entries.foldl (fun sorted field => insertField field.1 field.2 sorted) sorted).lookup name =
        (entries.lookup name).or (sorted.lookup name) by simpa [ofFields] using h []
  induction entries with
  | nil => exact fun sorted => rfl
  | cons entry rest ih =>
    intro sorted
    obtain ⟨key, value⟩ := entry
    rw [List.map_cons, List.nodup_cons] at hnames
    rw [List.foldl_cons, ih hnames.2]
    by_cases heq : name = key
    · subst heq
      have hnone : rest.lookup name = none := lookup_eq_none_of_not_mem hnames.1
      simp [hnone, lookup_insertField_self]
    · rw [lookup_insertField_of_ne heq, List.lookup_cons, beq_false_of_ne heq]

theorem fieldsDistinctNames_iff {fields : List (String × Json)} :
    FieldsDistinctNames fields ↔ ∀ field ∈ fields, field.2.HasDistinctNames := by
  induction fields with
  | nil => simp [FieldsDistinctNames]
  | cons field rest ih => simp [FieldsDistinctNames, ih]

theorem allDistinctNames_iff {items : List Json} :
    AllDistinctNames items ↔ ∀ item ∈ items, item.HasDistinctNames := by
  induction items with
  | nil => simp [AllDistinctNames]
  | cons item rest ih => simp [AllDistinctNames, ih]

theorem hasDistinctNames_ofFields {entries : List (String × Json)}
    (h : ∀ entry ∈ entries, entry.2.HasDistinctNames) : (ofFields entries).HasDistinctNames := by
  suffices hsorted : ∀ sorted, IsOrdered sorted → (∀ field ∈ sorted, field.2.HasDistinctNames) →
      HasDistinctNames (.object (entries.foldl (fun sorted field => insertField field.1 field.2 sorted) sorted)) from
    hsorted [] .nil (by simp)
  induction entries with
  | nil => exact fun sorted hordered hvalues => ⟨hordered.nodup, fieldsDistinctNames_iff.mpr hvalues⟩
  | cons entry rest ih =>
    obtain ⟨hentry, hrest⟩ := List.forall_mem_cons.mp h
    intro sorted hordered hvalues
    refine ih hrest _ (hordered.insertField _ _) fun field hfield => ?_
    rcases mem_insertField hfield with rfl | hfield
    · exact hentry
    · exact hvalues field hfield

/-! ### Leaving defaults out -/

mutual

/-- The value is the full one, except that fields may be left out that have their defaults, and that there may be
further fields. -/
inductive Abridges : Option Json → Json → Json → Prop
  | same {defaults : Option Json} (full : Json) : Abridges defaults full full
  | object {defaults : Option Json} {full fields : List (String × Json)} :
      (∀ name value, full.lookup name = some value →
        AbridgesField (defaults.bind fun object => object.get? name) value (fields.lookup name)) →
      Abridges defaults (.object full) (.object fields)
  | array {defaults : Option Json} {full items : List Json} : AbridgesItems full items →
      Abridges defaults (.array full) (.array items)

/-- What is found for a field abridges its value, or nothing is found and the value is the default. -/
inductive AbridgesField : Option Json → Json → Option Json → Prop
  | written {default : Option Json} {value json : Json} : Abridges default value json →
      AbridgesField default value (some json)
  | default (value : Json) : AbridgesField (some value) value none

/-- The items abridge the full ones one by one.  An item has no defaults. -/
inductive AbridgesItems : List Json → List Json → Prop
  | nil : AbridgesItems [] []
  | cons {full json : Json} {others rest : List Json} : Abridges none full json → AbridgesItems others rest →
      AbridgesItems (full :: others) (json :: rest)

end

/-- A field is left out just if it has its default. -/
theorem abridgesField_none_iff {default : Option Json} {value : Json} :
    AbridgesField default value none ↔ default = some value := by
  constructor
  · intro h
    cases h
    rfl
  · rintro rfl
    exact .default value

theorem abridgesField_some_iff {default : Option Json} {value json : Json} :
    AbridgesField default value (some json) ↔ Abridges default value json := by
  constructor
  · intro h
    cases h with
    | written h => exact h
  · exact .written

theorem AbridgesItems.same (full : List Json) : AbridgesItems full full := by
  induction full with
  | nil => exact .nil
  | cons item rest ih => exact .cons (.same item) ih

/-- An abridged object is an object in which each field is found abridged or left out. -/
theorem abridges_ofFields_iff {entries : List (String × Json)} (hnames : (entries.map Prod.fst).Nodup)
    {defaults : Option Json} {json : Json} :
    Abridges defaults (ofFields entries) json ↔ ∃ fields, json = .object fields ∧ ∀ entry ∈ entries,
      AbridgesField (defaults.bind fun object => object.get? entry.1) entry.2 (fields.lookup entry.1) := by
  obtain ⟨full, hfull⟩ : ∃ full, ofFields entries = .object full := ⟨_, rfl⟩
  have hlookup : ∀ {name value}, full.lookup name = some value ↔ (name, value) ∈ entries := by
    intro name value
    rw [← get?_object, ← hfull, get?_ofFields hnames]
    exact ⟨mem_of_lookup, lookup_of_mem hnames⟩
  rw [hfull]
  constructor
  · intro h
    cases h with
    | same =>
      refine ⟨full, rfl, fun entry hentry => ?_⟩
      rw [hlookup.mpr hentry]
      exact .written (.same _)
    | object hfields => exact ⟨_, rfl, fun entry hentry => hfields _ _ (hlookup.mpr hentry)⟩
  · rintro ⟨fields, rfl, hfields⟩
    exact .object fun name value hvalue => hfields _ (hlookup.mp hvalue)

theorem abridges_array_iff {full : List Json} {defaults : Option Json} {json : Json} :
    Abridges defaults (.array full) json ↔ ∃ items, json = .array items ∧ AbridgesItems full items := by
  constructor
  · intro h
    cases h with
    | same => exact ⟨full, rfl, .same full⟩
    | array hitems => exact ⟨_, rfl, hitems⟩
  · rintro ⟨items, rfl, hitems⟩
    exact .array hitems

/-- Neither an array nor an object. -/
def IsAtom : Json → Prop
  | .array _ | .object _ => False
  | _ => True

theorem IsAtom.hasDistinctNames {value : Json} (h : value.IsAtom) : value.HasDistinctNames := by
  cases value with
  | array => exact h.elim
  | object => exact h.elim
  | _ => trivial

theorem abridges_iff_of_isAtom {full : Json} (hfull : full.IsAtom) {defaults : Option Json} {json : Json} :
    Abridges defaults full json ↔ json = full := by
  constructor
  · intro h
    cases h with
    | same => rfl
    | object => exact hfull.elim
    | array => exact hfull.elim
  · rintro rfl
    exact .same json

/-! ### Codecs -/

/-- The reader takes the abridged forms of what is written for a value for this value. -/
structure IsCodec {α : Type} (defaults : Option Json) (read : Json → Decoded α) (write : α → Json) : Prop where
  hasDistinctNames : ∀ value, (write value).HasDistinctNames
  read_of_abridges : ∀ {value json}, json.HasDistinctNames → Abridges defaults (write value) json →
    read json = .ok value

section Codec

variable {α : Type} {defaults : Option Json} {read : Json → Decoded α} {write : α → Json}

theorem IsCodec.read_write (h : IsCodec defaults read write) (value : α) : read (write value) = .ok value :=
  h.read_of_abridges (h.hasDistinctNames value) (.same _)

theorem IsCodec.eq_of_write_eq (h : IsCodec defaults read write) {first second : α} (heq : write first = write second) :
    first = second := by
  have hread : read (write second) = .ok first := heq ▸ h.read_write first
  rw [h.read_write second] at hread
  exact (Except.ok.inj hread).symm

/-- Of values that are written as atoms, what is written has to be read. -/
theorem isCodec_of_isAtom (hwrite : ∀ value, (write value).IsAtom) (hread : ∀ value, read (write value) = .ok value) :
    IsCodec defaults read write where
  hasDistinctNames value := (hwrite value).hasDistinctNames
  read_of_abridges {value json} _ habridges := by
    rw [(abridges_iff_of_isAtom (hwrite value)).mp habridges, hread]

theorem isCodec_bool : IsCodec defaults expectBool .bool := isCodec_of_isAtom (fun _ => trivial) fun _ => rfl

theorem isCodec_text : IsCodec defaults expectText .text := isCodec_of_isAtom (fun _ => trivial) fun _ => rfl

theorem isCodec_optionalText : IsCodec defaults expectOptionalText fun value => value.elim .null .text :=
  isCodec_of_isAtom (fun value => by cases value <;> trivial) fun value => by cases value <;> rfl

theorem IsCodec.mapM_of_abridges (h : IsCodec none read write) {items : List Json} (hitems : AllDistinctNames items)
    {values : List α} (habridges : AbridgesItems (values.map write) items) : items.mapM read = .ok values := by
  induction items generalizing values with
  | nil =>
    cases values with
    | nil => rfl
    | cons => cases habridges
  | cons json rest ih =>
    obtain ⟨hjson, hrest⟩ := hitems
    cases values with
    | nil => cases habridges
    | cons value others =>
      cases habridges with
      | cons hvalue hothers =>
        rw [List.mapM_cons, h.read_of_abridges hjson hvalue, ih hrest hothers]
        rfl

theorem IsCodec.array (h : IsCodec none read write) :
    IsCodec defaults (fun json => do (← json.expectArray).mapM read) fun values => .array (values.map write) where
  hasDistinctNames values := by
    refine allDistinctNames_iff.mpr fun item hitem => ?_
    obtain ⟨value, -, rfl⟩ := List.mem_map.mp hitem
    exact h.hasDistinctNames value
  read_of_abridges {values json} hjson habridges := by
    obtain ⟨items, rfl, hitems⟩ := abridges_array_iff.mp habridges
    exact h.mapM_of_abridges hjson hitems

end Codec

end Json

end StubGen
