import StubGen.Proofs.Options.Abridged

/-!
# Records read field by field

A record is read with `Json.expectRecord`: from its defaults, `start`, by putting in the fields of an object one after
the other with `step`.  A `Slot` describes what `step` does with one field, and `IsRecord` says that it does nothing
else.

* `IsRecord.receives_of_foldlM`: each slot receives what is found under its name, and keeps its default if nothing is.
* `IsRecord.expectRecord_of_abridges`: so a record can be given in its abridged forms.
* `IsRecord.isCodec`: a record with a default for each field, and what is written for it, are a codec again.
-/

namespace StubGen

open Json

/-- One field of a record that is read by `step`, starting from the defaults in `start`. -/
structure Slot {α : Type} (start : α) (step : α → String → Json → Decoded α) where
  name : String
  Value : Type
  /-- The value in a record; there is none as long as a field without a default was not found. -/
  get : α → Option Value
  set : α → Value → α
  read : Json → Decoded Value
  write : Value → Json
  isCodec : IsCodec ((get start).map write) read write
  get_set : ∀ record value, get (set record value) = some value
  step_name : ∀ record json, step record name json = do return set record (← read json)

section Record

variable {α : Type} {start : α} {step : α → String → Json → Decoded α}

namespace Slot

variable (slot : Slot start step)

/-- Between two records the slot received what was found for it; it was kept if nothing was found. -/
def Receives (before after : α) : Option Json → Prop
  | none => slot.get after = slot.get before
  | some json => ∃ value, slot.read json = .ok value ∧ slot.get after = some value

/-- The field as it is written for a record. -/
def entry (record : α) : Option (String × Json) := (slot.get record).map fun value => (slot.name, slot.write value)

variable {slot}

theorem Receives.of_get_eq {before middle after : α} {found : Option Json} (hget : slot.get middle = slot.get before)
    (h : slot.Receives middle after found) : slot.Receives before after found := by
  cases found with
  | none => exact h.trans hget
  | some _ => exact h

/-- What is received is settled by what is found. -/
theorem Receives.get_eq {before first second : α} {found : Option Json} (hfirst : slot.Receives before first found)
    (hsecond : slot.Receives before second found) : slot.get first = slot.get second := by
  cases found with
  | none => exact hfirst.trans hsecond.symm
  | some json =>
    obtain ⟨value, hread, hvalue⟩ := hfirst
    obtain ⟨other, hread', hother⟩ := hsecond
    rw [hvalue, hother, Except.ok.inj (hread.symm.trans hread')]

/-- A slot receives the value that is found abridged, or that is the default and not found. -/
theorem receives_of_abridges {target : α} {value : slot.Value} (hvalue : slot.get target = some value)
    {found : Option Json} (hfound : ∀ json, found = some json → json.HasDistinctNames)
    (habridges : AbridgesField ((slot.get start).map slot.write) (slot.write value) found) :
    slot.Receives start target found := by
  cases found with
  | none =>
    obtain ⟨initial, hinitial, hwrite⟩ := Option.map_eq_some_iff.mp (abridgesField_none_iff.mp habridges)
    rw [Receives, hvalue, hinitial, slot.isCodec.eq_of_write_eq hwrite]
  | some json =>
    exact ⟨value, slot.isCodec.read_of_abridges (hfound json rfl) (abridgesField_some_iff.mp habridges), hvalue⟩

/-- The fields of a record with these slots, as far as it has values for them. -/
def entries (slots : List (Slot start step)) (record : α) : List (String × Json) :=
  slots.filterMap fun slot => slot.entry record

variable {slots : List (Slot start step)}

theorem mem_entries_iff {record : α} {entry : String × Json} :
    entry ∈ entries slots record ↔
      ∃ slot ∈ slots, ∃ value, slot.get record = some value ∧ entry = (slot.name, slot.write value) := by
  simp only [entries, List.mem_filterMap, Slot.entry, Option.map_eq_some_iff, eq_comm (b := entry)]

/-- Neither of two slots is changed by what is put into the other. -/
def IsApart (first second : Slot start step) : Prop :=
  (∀ record value, first.get (second.set record value) = first.get record) ∧
    ∀ record value, second.get (first.set record value) = second.get record

end Slot

variable {slots : List (Slot start step)}

/-- The slots are what `step` reads, and what a record consists of. -/
structure IsRecord (slots : List (Slot start step)) : Prop where
  nodup : (slots.map Slot.name).Nodup
  isApart : slots.Pairwise Slot.IsApart
  step_other : ∀ record name json, name ∉ slots.map Slot.name → step record name json = .ok record
  ext : ∀ record record', (∀ slot ∈ slots, slot.get record = slot.get record') → record = record'

namespace IsRecord

/-- A field of another name leaves the value of a slot alone. -/
theorem get_step (h : IsRecord slots) {slot : Slot start step} (hslot : slot ∈ slots) {before after : α}
    {name : String} {json : Json} (hne : name ≠ slot.name) (hstep : step before name json = .ok after) :
    slot.get after = slot.get before := by
  by_cases hname : name ∈ slots.map Slot.name
  · obtain ⟨other, hother, rfl⟩ := List.mem_map.mp hname
    rw [other.step_name] at hstep
    obtain ⟨value, -, hset⟩ := exists_of_bind hstep
    cases hset
    have hapart := List.Pairwise.forall_of_forall_of_flip
      (R := fun first second : Slot start step => first.name ≠ second.name →
        ∀ record value, first.get (second.set record value) = first.get record)
      (fun _ _ hne => absurd rfl hne) (h.isApart.imp fun hpair _ => hpair.1) (h.isApart.imp fun hpair _ => hpair.2)
    exact hapart hslot hother (Ne.symm hne) before value
  · rw [h.step_other before name json hname] at hstep
    cases hstep
    rfl

/-- Reading the fields of an object, a slot receives what is under its name. -/
theorem receives_of_foldlM (h : IsRecord slots) {slot : Slot start step} (hslot : slot ∈ slots) {before after : α}
    {fields : List (String × Json)} (hnames : (fields.map Prod.fst).Nodup)
    (hfold : fields.foldlM (fun record field => step record field.1 field.2) before = .ok after) :
    slot.Receives before after (fields.lookup slot.name) := by
  induction fields generalizing before with
  | nil =>
    cases hfold
    exact rfl
  | cons field rest ih =>
    obtain ⟨name, json⟩ := field
    rw [List.map_cons, List.nodup_cons] at hnames
    rw [List.foldlM_cons] at hfold
    obtain ⟨middle, hstep, hfold⟩ := exists_of_bind hfold
    have hrest := ih hnames.2 hfold
    by_cases hname : name = slot.name
    · subst hname
      rw [lookup_eq_none_of_not_mem hnames.1] at hrest
      rw [slot.step_name] at hstep
      obtain ⟨value, hread, hset⟩ := exists_of_bind hstep
      cases hset
      rw [List.lookup_cons_self]
      exact ⟨value, hread, hrest.trans (slot.get_set before value)⟩
    · rw [List.lookup_cons, beq_false_of_ne (Ne.symm hname)]
      -- The field is another one's, so what the rest does to this slot is all that is done to it.
      exact hrest.of_get_eq (h.get_step hslot hname hstep)

theorem nodup_entries (h : IsRecord slots) (record : α) : ((Slot.entries slots record).map Prod.fst).Nodup := by
  refine List.pairwise_map.mpr (List.Pairwise.filterMap _ ?_ (List.pairwise_map.mp h.nodup))
  intro first second hne entry hfirst other hsecond
  obtain ⟨_, -, rfl⟩ := Option.map_eq_some_iff.mp hfirst
  obtain ⟨_, -, rfl⟩ := Option.map_eq_some_iff.mp hsecond
  exact hne

/-- An object can be read if the fields that have slots can be. -/
theorem exists_foldlM (h : IsRecord slots) {fields : List (String × Json)} (before : α)
    (hfields : ∀ field ∈ fields, ∀ slot ∈ slots, slot.name = field.1 → ∃ value, slot.read field.2 = .ok value) :
    ∃ after, fields.foldlM (fun record field => step record field.1 field.2) before = .ok after := by
  induction fields generalizing before with
  | nil => exact ⟨before, rfl⟩
  | cons field rest ih =>
    obtain ⟨hfield, hrest⟩ := List.forall_mem_cons.mp hfields
    obtain ⟨name, json⟩ := field
    have hstep : ∃ middle, step before name json = .ok middle := by
      by_cases hname : name ∈ slots.map Slot.name
      · obtain ⟨slot, hslot, rfl⟩ := List.mem_map.mp hname
        obtain ⟨value, hread⟩ := hfield slot hslot rfl
        refine ⟨slot.set before value, ?_⟩
        rw [slot.step_name, hread]
        rfl
      · exact ⟨before, h.step_other before name json hname⟩
    obtain ⟨middle, hmiddle⟩ := hstep
    obtain ⟨after, hafter⟩ := ih middle hrest
    refine ⟨after, ?_⟩
    rw [List.foldlM_cons, hmiddle]
    exact hafter

/-- An object is read as the record whose slots received what is under their names. -/
theorem foldlM_of_receives (h : IsRecord slots) {fields : List (String × Json)} (hnames : (fields.map Prod.fst).Nodup)
    {target : α} (hreceives : ∀ slot ∈ slots, slot.Receives start target (fields.lookup slot.name)) :
    fields.foldlM (fun record field => step record field.1 field.2) start = .ok target := by
  obtain ⟨after, hafter⟩ : ∃ after,
      fields.foldlM (fun record field => step record field.1 field.2) start = .ok after := by
    refine h.exists_foldlM start fun field hfield slot hslot hname => ?_
    have hslot := hreceives slot hslot
    rw [hname, lookup_of_mem hnames hfield] at hslot
    exact hslot.imp fun value hvalue => hvalue.1
  have heq : target = after := h.ext target after fun slot hslot =>
    (hreceives slot hslot).get_eq (h.receives_of_foldlM hslot hnames hafter)
  rw [hafter, heq]

variable {defaults : Option Json} {target : α} {json : Json} {expected : String} {names : List String}

/-- A record is read from what abridges its full form, over the fields that are written for its defaults. -/
theorem expectRecord_of_abridges (h : IsRecord slots)
    (hdefaults : ∀ slot ∈ slots, (defaults.bind fun object => object.get? slot.name) = (slot.get start).map slot.write)
    (htarget : ∀ slot ∈ slots, (slot.get target).isSome) (hjson : json.HasDistinctNames)
    (habridges : Abridges defaults (.ofFields (Slot.entries slots target)) json) :
    expectRecord expected names start step json = .ok target := by
  obtain ⟨fields, rfl, hentries⟩ := (abridges_ofFields_iff (h.nodup_entries target)).mp habridges
  obtain ⟨hnames, hvalues⟩ := hjson
  have hfound : ∀ {name found}, fields.lookup name = some found → found.HasDistinctNames := fun hlookup =>
    fieldsDistinctNames_iff.mp hvalues _ (mem_of_lookup hlookup)
  refine h.foldlM_of_receives hnames fun slot hslot => ?_
  obtain ⟨value, hvalue⟩ := Option.isSome_iff_exists.mp (htarget slot hslot)
  have hentry := hentries _ (Slot.mem_entries_iff.mpr ⟨slot, hslot, value, hvalue, rfl⟩)
  rw [hdefaults slot hslot] at hentry
  exact Slot.receives_of_abridges hvalue (fun _ => hfound) hentry

/-- A record that has a default for each field is read from what abridges it over the defaults. -/
theorem isCodec (h : IsRecord slots) (htotal : ∀ record, ∀ slot ∈ slots, (slot.get record).isSome) :
    IsCodec (some (.ofFields (Slot.entries slots start))) (expectRecord expected names start step) fun record =>
      .ofFields (Slot.entries slots record) where
  hasDistinctNames record := by
    refine hasDistinctNames_ofFields fun entry hentry => ?_
    obtain ⟨slot, -, value, -, rfl⟩ := Slot.mem_entries_iff.mp hentry
    exact slot.isCodec.hasDistinctNames value
  read_of_abridges {target json} hjson habridges := by
    refine h.expectRecord_of_abridges (fun slot hslot => ?_) (htotal target) hjson habridges
    obtain ⟨value, hvalue⟩ := Option.isSome_iff_exists.mp (htotal start slot hslot)
    have hentry := lookup_of_mem (h.nodup_entries start) (Slot.mem_entries_iff.mpr ⟨slot, hslot, value, hvalue, rfl⟩)
    rw [Option.bind_some, get?_ofFields (h.nodup_entries start), hentry, hvalue]
    rfl

end IsRecord

end Record

end StubGen
