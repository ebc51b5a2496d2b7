import StubGen.Proofs.Options.Slots

/-!
# Options over their defaults

Every record of options is read from the abridged forms of what is written for it, over the defaults
(`isCodec_json` of each record).  So a table of options means its defaults overlaid by what is in it
(`Options.ofJson_of_abridges`).

* `LineRule` has no defaults: both of its fields have to be there.
* The `slots` of the other records are total: each field has a default.
-/

namespace StubGen

open Json

private theorem isCodec_texts {defaults : Option Json} :
    IsCodec defaults expectTexts fun values => .array (values.map .text) := isCodec_text.array

/-- A field that each record has a value for. -/
def Slot.total {α β : Type} {start : α} {step : α → String → Json → Decoded α} (name : String) (get : α → β)
    (set : α → β → α) (read : Json → Decoded β) (write : β → Json)
    (isCodec : IsCodec (some (write (get start))) read write)
    (get_set : ∀ record value, get (set record value) = value)
    (step_name : ∀ record json, step record name json = do return set record (← read json)) : Slot start step where
  name := name
  Value := β
  get record := some (get record)
  set := set
  read := read
  write := write
  isCodec := isCodec
  get_set record value := congrArg some (get_set record value)
  step_name := step_name

namespace LineRule

def slots : List (Slot (none, none) readField) := [
  { name := "pattern", Value := String, get := Prod.fst, set := fun rule value => (some value, rule.2)
    read := expectText, write := .text, isCodec := isCodec_text
    get_set := fun _ _ => rfl, step_name := fun _ _ => rfl },
  { name := "replacement", Value := String, get := Prod.snd, set := fun rule value => (rule.1, some value)
    read := expectText, write := .text, isCodec := isCodec_text
    get_set := fun _ _ => rfl, step_name := fun _ _ => rfl }]

theorem isRecord_slots : IsRecord slots where
  nodup := by simp [slots]
  isApart := by simp [slots, Slot.IsApart]
  step_other := by
    intro rule name json hname
    unfold readField
    split <;> first
      | rfl
      | exact absurd (by simp [slots]) hname
  ext := by
    intro rule rule' h
    simpa [slots, Prod.ext_iff] using h

theorem isCodec_json : IsCodec none ofJson toJson where
  hasDistinctNames rule := hasDistinctNames_ofFields (by simp [HasDistinctNames])
  read_of_abridges {rule json} hjson habridges := by
    have hread : json.expectRecord "struct RewriteRule" ["pattern", "replacement"] (none, none) readField =
        .ok (some rule.pattern, some rule.replacement) :=
      isRecord_slots.expectRecord_of_abridges (by simp [slots]) (by simp [slots]) hjson habridges
    rw [ofJson, hread]
    rfl

end LineRule

namespace FilterOptions

def slots : List (Slot {} readField) := [
  .total "start_marker" startMarker (fun options value => { options with startMarker := value })
    expectOptionalText (fun value => value.elim .null .text) isCodec_optionalText (fun _ _ => rfl) (fun _ _ => rfl),
  .total "stack_poke" stackPoke (fun options value => { options with stackPoke := value })
    expectBool .bool isCodec_bool (fun _ _ => rfl) (fun _ _ => rfl),
  .total "rewrites" rules (fun options value => { options with rules := value })
    (fun json => do (← json.expectArray).mapM LineRule.ofJson) (fun rules => .array (rules.map LineRule.toJson))
    LineRule.isCodec_json.array (fun _ _ => rfl) (fun _ json => by cases json <;> rfl)]

theorem isRecord_slots : IsRecord slots where
  nodup := by simp [slots, Slot.total]
  isApart := by simp [slots, Slot.total, Slot.IsApart]
  step_other := by
    intro options name json hname
    unfold readField
    split <;> first
      | rfl
      | exact absurd (by simp [slots, Slot.total]) hname
  ext := by
    intro options options' h
    cases options
    cases options'
    simpa [slots, Slot.total] using h

theorem isCodec_json : IsCodec (some ({} : FilterOptions).toJson) ofJson toJson :=
  isRecord_slots.isCodec (by simp [slots, Slot.total])

end FilterOptions

namespace UnitOptions

def slots : List (Slot {} readField) := [
  .total "reduce_parentheses" reduceParentheses (fun options value => { options with reduceParentheses := value })
    expectBool .bool isCodec_bool (fun _ _ => rfl) (fun _ _ => rfl),
  .total "use_type_hints" typeHints (fun options value => { options with typeHints := value })
    expectBool .bool isCodec_bool (fun _ _ => rfl) (fun _ _ => rfl),
  .total "keep_empty_declarations" keepEmptyDeclarations
    (fun options value => { options with keepEmptyDeclarations := value })
    expectBool .bool isCodec_bool (fun _ _ => rfl) (fun _ _ => rfl),
  .total "type_hint_declarations" annotateDeclarations
    (fun options value => { options with annotateDeclarations := value })
    expectBool .bool isCodec_bool (fun _ _ => rfl) (fun _ _ => rfl),
  .total "emit_aggregates" emitAggregates (fun options value => { options with emitAggregates := value })
    expectBool .bool isCodec_bool (fun _ _ => rfl) (fun _ _ => rfl),
  .total "goto_call" gotoCall (fun options value => { options with gotoCall := value })
    expectOptionalText (fun value => value.elim .null .text) isCodec_optionalText (fun _ _ => rfl) (fun _ _ => rfl),
  .total "header" header (fun options value => { options with header := value })
    expectTexts (fun values => .array (values.map .text)) isCodec_texts (fun _ _ => rfl) (fun _ _ => rfl),
  .total "postprocess" filter (fun options value => { options with filter := value })
    FilterOptions.ofJson FilterOptions.toJson FilterOptions.isCodec_json (fun _ _ => rfl) (fun _ _ => rfl)]

theorem isRecord_slots : IsRecord slots where
  nodup := by simp [slots, Slot.total]
  isApart := by simp [slots, Slot.total, Slot.IsApart]
  step_other := by
    intro options name json hname
    unfold readField
    split <;> first
      | rfl
      | exact absurd (by simp [slots, Slot.total]) hname
  ext := by
    intro options options' h
    cases options
    cases options'
    simpa [slots, Slot.total] using h

theorem isCodec_json : IsCodec (some ({} : UnitOptions).toJson) ofJson toJson :=
  isRecord_slots.isCodec (by simp [slots, Slot.total])

end UnitOptions

namespace DeclOptions

def slots : List (Slot {} readField) := [
  .total "runtime_module" runtimeModule (fun options value => { options with runtimeModule := value })
    expectText .text isCodec_text (fun _ _ => rfl) (fun _ _ => rfl),
  .total "synthesized_prefix" typeStem (fun options value => { options with typeStem := value })
    expectText .text isCodec_text (fun _ _ => rfl) (fun _ _ => rfl),
  .total "header" header (fun options value => { options with header := value })
    expectTexts (fun values => .array (values.map .text)) isCodec_texts (fun _ _ => rfl) (fun _ _ => rfl)]

theorem isRecord_slots : IsRecord slots where
  nodup := by simp [slots, Slot.total]
  isApart := by simp [slots, Slot.total, Slot.IsApart]
  step_other := by
    intro options name json hname
    unfold readField
    split <;> first
      | rfl
      | exact absurd (by simp [slots, Slot.total]) hname
  ext := by
    intro options options' h
    cases options
    cases options'
    simpa [slots, Slot.total] using h

theorem isCodec_json : IsCodec (some ({} : DeclOptions).toJson) ofJson toJson :=
  isRecord_slots.isCodec (by simp [slots, Slot.total])

end DeclOptions

namespace Options

def slots : List (Slot {} readField) := [
  .total "c" c (fun options value => { options with c := value })
    UnitOptions.ofJson UnitOptions.toJson UnitOptions.isCodec_json (fun _ _ => rfl) (fun _ _ => rfl),
  .total "dts" dts (fun options value => { options with dts := value })
    DeclOptions.ofJson DeclOptions.toJson DeclOptions.isCodec_json (fun _ _ => rfl) (fun _ _ => rfl)]

theorem isRecord_slots : IsRecord slots where
  nodup := by simp [slots, Slot.total]
  isApart := by simp [slots, Slot.total, Slot.IsApart]
  step_other := by
    intro options name json hname
    unfold readField
    split <;> first
      | rfl
      | exact absurd (by simp [slots, Slot.total]) hname
  ext := by
    intro options options' h
    cases options
    cases options'
    simpa [slots, Slot.total] using h

theorem isCodec_json : IsCodec (some ({} : Options).toJson) ofJson toJson :=
  isRecord_slots.isCodec (by simp [slots, Slot.total])

/-- Options are read back from what is written for them, and from the same with fields that have their defaults left
out at any depth and with unknown fields put in. -/
theorem ofJson_of_abridges : (∀ options : Options, ofJson options.toJson = .ok options) ∧
    ∀ (options : Options) (json : Json), json.HasDistinctNames →
      Abridges (some ({} : Options).toJson) options.toJson json → ofJson json = .ok options :=
  ⟨isCodec_json.read_write, fun _ _ => isCodec_json.read_of_abridges⟩

/-- A table that only switches hints on, with two fields that no option has. -/
def hintsTable : Json :=
  .object [("c", .object [("extra", .null), ("use_type_hints", .bool true)]), ("unknown", .int 1)]

private theorem abridges_hintsTable :
    Abridges (some ({} : Options).toJson) ({ c := { typeHints := true } } : Options).toJson hintsTable := by
  refine (abridges_ofFields_iff (by decide)).mpr ⟨_, rfl, ?_⟩
  simp only [List.forall_mem_cons]
  refine ⟨.written ?_, .default _, List.forall_mem_nil _⟩
  refine (abridges_ofFields_iff (by decide)).mpr ⟨_, rfl, ?_⟩
  simp only [List.forall_mem_cons]
  exact ⟨.default _, .written (.same _), .default _, .default _, .default _, .default _, .default _, .default _,
    List.forall_mem_nil _⟩

theorem ofJson_hintsTable : hintsTable.HasDistinctNames ∧
    Abridges (some ({} : Options).toJson) ({ c := { typeHints := true } } : Options).toJson hintsTable ∧
    ofJson hintsTable = .ok { c := { typeHints := true } } := by
  have hnames : hintsTable.HasDistinctNames := by simp [hintsTable, HasDistinctNames, FieldsDistinctNames]
  exact ⟨hnames, abridges_hintsTable, ofJson_of_abridges.2 _ _ hnames abridges_hintsTable⟩

end Options

end StubGen
