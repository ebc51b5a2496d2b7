import StubGen.Proofs.Dump.Encoding

/-!
# Reading dumps

A value is read as a unit just if it is a dump of it, in which nodes below the root may have indices for tags
(`readUnit_dump`).

* `build_eq_ok_iff`: a node is put together from its parts, and from nothing else.
* `readField_of_encodes` and `exists_of_readField` are about one field, and `lookup_readFields` is about those of an
  object.
-/

namespace StubGen.CUnit

open Json

/-! ### Nodes from their parts -/

/-- What holds content of this kind. -/
def Content.shape : Content → Shape
  | text _ => .text
  | optionalText _ => .optionalText
  | texts _ => .texts
  | node _ => .node
  | optionalNode _ => .optionalNode
  | nodes _ => .nodes
  | optionalNodes _ => .optionalNodes

/-- The field of this name gives the content. -/
def Fields.Gives (fields : Fields) (name : String) : Content → Prop
  | .text value => fields.text name = .ok value
  | .optionalText value => fields.optionalText name = value
  | .texts values => fields.texts name = values
  | .node value => fields.node name = .ok value
  | .optionalNode value => fields.optionalNode name = value
  | .nodes values => fields.nodes name = values
  | .optionalNodes values => fields.optionalNodes name = values

/-- The parts of a node are what its kind has fields for. -/
theorem fieldsOf?_kind (node : Node) :
    Shape.fieldsOf? node.kind = some (node.fields.map fun part => (part.1, part.2.shape)) := by
  cases node <;> rfl

/-- The parts of a node have different names. -/
theorem lookup_shapes {node : Node} {part : String × Content} (h : part ∈ node.fields) :
    (node.fields.map fun part => (part.1, part.2.shape)).lookup part.1 = some part.2.shape := by
  have hnames : (node.fields.map Prod.fst).Nodup := by cases node <;> simp [Node.fields]
  have hmem : (part.1, part.2.shape) ∈ node.fields.map fun part => (part.1, part.2.shape) :=
    List.mem_map_of_mem h
  refine lookup_of_mem ?_ hmem
  rw [List.map_map]
  exact hnames

/-- A node is put together from its parts, and from nothing else. -/
theorem build_eq_ok_iff {kind : String} {fields : Fields} {node : Node} :
    build kind fields = .ok node ↔ kind = node.kind ∧ ∀ part ∈ node.fields, fields.Gives part.1 part.2 := by
  constructor
  · intro h
    unfold build at h
    split at h
    all_goals
      repeat obtain ⟨_, _, h⟩ := exists_of_bind h
      cases h
      try exact ⟨rfl, by simp [Node.fields, Fields.Gives, *]⟩
  · rintro ⟨rfl, h⟩
    cases node <;>
      simp only [Node.fields, Fields.Gives, List.forall_mem_cons, List.not_mem_nil] at h <;>
      unfold build <;> simp only [Node.kind, h] <;> rfl

/-! ### Fields -/

/-- The nodes in the value are read just if they are encoded. -/
structure ReadsBack (value : Json) : Prop where
  node : ∀ node, readNodeIn true value = .ok node ↔ Encodes IsKindOrIndex value node
  nodes : ∀ items, value = .array items → ∀ nodes, readNodes items = .ok nodes ↔ EncodesAll IsKindOrIndex items nodes

/-- The content of a field, if there is a field of this name. -/
def readField (shapes : List (String × Shape)) (name : String) (value : Json) : Decoded (Option Content) :=
  match shapes.lookup name with
  | none => .ok none
  | some .node => return some (.node (← readNodeIn true value))
  | some .optionalNode => do
    if value.isNull then return some (.optionalNode none)
    else return some (.optionalNode (some (← readNodeIn true value)))
  | some .nodes =>
    match value with
    | .null => .ok (some (.nodes []))
    | .array items => return some (.nodes (← readNodes items))
    | found => .error (.wrongType found "a sequence")
  | some .optionalNodes =>
    match value with
    | .null => .ok (some (.optionalNodes none))
    | .array items => return some (.optionalNodes (some (← readNodes items)))
    | found => .error (.wrongType found "a sequence")
  | some shape => readPlain shape value

theorem readFields_cons (shapes : List (String × Shape)) (name : String) (value : Json) (rest : List (String × Json)) :
    readFields shapes ((name, value) :: rest) = do
      let content ← readField shapes name value
      let others ← readFields shapes rest
      return (content.map fun content => (name, content)).toList ++ others := by
  -- the two definitions branch on the same things, but not in the same order
  cases value <;> rw [readFields.eq_def] <;> rfl

private theorem mapM_expectText (values : List String) : (values.map Json.text).mapM expectText = .ok values := by
  induction values with
  | nil => rfl
  | cons value rest ih =>
    rw [List.map_cons, List.mapM_cons, ih]
    rfl

private theorem eq_map_of_mapM {items : List Json} {values : List String} (h : items.mapM expectText = .ok values) :
    items = values.map Json.text := by
  induction items generalizing values with
  | nil =>
    cases h
    rfl
  | cons item rest ih =>
    rw [List.mapM_cons] at h
    obtain ⟨value, hvalue, h⟩ := exists_of_bind h
    obtain ⟨others, hothers, h⟩ := exists_of_bind h
    cases h
    cases item with
    | text value' =>
      cases hvalue
      rw [ih hothers, List.map_cons]
    | _ => cases hvalue

section Field

variable {shapes : List (String × Shape)} {name : String} {value : Json}

/-- A field is read as the content that it encodes. -/
theorem readField_of_encodes (hvalue : ReadsBack value) {content : Content}
    (hshape : shapes.lookup name = some content.shape) (h : EncodesField IsKindOrIndex (some value) content) :
    readField shapes name value = .ok (some content) := by
  have habsent : IsAbsent (some value) → value = .null := by
    rintro (h | h)
    · cases h
    · exact Option.some.inj h
  unfold readField
  rw [hshape]
  cases h with
  | text | optionalText => rfl
  | noText h | noTexts h | noNode h | noNodes h | noOptionalNodes h =>
    cases habsent h
    rfl
  | texts values =>
    have htexts : expectTexts (.array (values.map .text)) = .ok values := mapM_expectText values
    simp only [Content.shape, readPlain, htexts]
    rfl
  | node h =>
    simp only [Content.shape, (hvalue.node _).mpr h]
    rfl
  | optionalNode h =>
    have hnotNull : value.isNull = false := by
      cases h
      rfl
    simp only [Content.shape, (hvalue.node _).mpr h, hnotNull]
    rfl
  | nodes h =>
    simp only [Content.shape, (hvalue.nodes _ rfl _).mpr h]
    rfl
  | optionalNodes h =>
    simp only [Content.shape, (hvalue.nodes _ rfl _).mpr h]
    rfl

/-- What is read from a field with a shape is content of this shape, and the field encodes it. -/
theorem exists_of_readField (hvalue : ReadsBack value) {shape : Shape} (hshape : shapes.lookup name = some shape)
    {found : Option Content} (h : readField shapes name value = .ok found) :
    ∃ content, found = some content ∧ content.shape = shape ∧ EncodesField IsKindOrIndex (some value) content := by
  unfold readField at h
  rw [hshape] at h
  cases shape with
  | text =>
    obtain ⟨text, htext, h⟩ := exists_of_bind h
    cases h
    cases value with
    | text _ =>
      cases htext
      exact ⟨_, rfl, rfl, .text text⟩
    | _ => cases htext
  | optionalText =>
    obtain ⟨text, htext, h⟩ := exists_of_bind h
    cases h
    cases value with
    | null =>
      cases htext
      exact ⟨_, rfl, rfl, .noText (Or.inr rfl)⟩
    | text text =>
      cases htext
      exact ⟨_, rfl, rfl, .optionalText text⟩
    | _ => cases htext
  | texts =>
    cases value with
    | null =>
      cases h
      exact ⟨_, rfl, rfl, .noTexts (Or.inr rfl)⟩
    | array items =>
      obtain ⟨values, hvalues, h⟩ := exists_of_bind h
      cases h
      rw [eq_map_of_mapM hvalues]
      exact ⟨_, rfl, rfl, .texts values⟩
    | _ => cases h
  | node =>
    obtain ⟨node, hnode, h⟩ := exists_of_bind h
    cases h
    exact ⟨_, rfl, rfl, .node ((hvalue.node _).mp hnode)⟩
  | optionalNode =>
    cases hnull : value.isNull with
    | true =>
      simp only [hnull] at h
      cases h
      cases value with
      | null => exact ⟨_, rfl, rfl, .noNode (Or.inr rfl)⟩
      | _ => cases hnull
    | false =>
      simp only [hnull] at h
      obtain ⟨node, hnode, h⟩ := exists_of_bind h
      cases h
      exact ⟨_, rfl, rfl, .optionalNode ((hvalue.node _).mp hnode)⟩
  | nodes =>
    cases value with
    | null =>
      cases h
      exact ⟨_, rfl, rfl, .noNodes (Or.inr rfl)⟩
    | array items =>
      obtain ⟨nodes, hnodes, h⟩ := exists_of_bind h
      cases h
      exact ⟨_, rfl, rfl, .nodes ((hvalue.nodes _ rfl _).mp hnodes)⟩
    | _ => cases h
  | optionalNodes =>
    cases value with
    | null =>
      cases h
      exact ⟨_, rfl, rfl, .noOptionalNodes (Or.inr rfl)⟩
    | array items =>
      obtain ⟨nodes, hnodes, h⟩ := exists_of_bind h
      cases h
      exact ⟨_, rfl, rfl, .optionalNodes ((hvalue.nodes _ rfl _).mp hnodes)⟩
    | _ => cases h

end Field

section Fields

variable {shapes : List (String × Shape)} {fields : List (String × Json)} {decoded : Fields} {name : String}

/-- What is decoded under the name of a field is the content of the field, and nothing if it is not there. -/
theorem lookup_readFields (hreads : ∀ field ∈ fields, ReadsBack field.2) (h : readFields shapes fields = .ok decoded)
    {shape : Shape} (hshape : shapes.lookup name = some shape) :
    (fields.lookup name = none ∧ decoded.lookup name = none) ∨
      ∃ value content, fields.lookup name = some value ∧ decoded.lookup name = some content ∧
        readField shapes name value = .ok (some content) ∧ ReadsBack value := by
  induction fields generalizing decoded with
  | nil =>
    cases h
    exact Or.inl ⟨rfl, rfl⟩
  | cons field rest ih =>
    obtain ⟨other, value⟩ := field
    obtain ⟨hvalue, hrest⟩ := List.forall_mem_cons.mp hreads
    rw [readFields_cons] at h
    obtain ⟨found, hfound, h⟩ := exists_of_bind h
    obtain ⟨others, hothers, h⟩ := exists_of_bind h
    cases h
    by_cases hname : name = other
    · subst hname
      obtain ⟨content, rfl, -, -⟩ := exists_of_readField hvalue hshape hfound
      exact Or.inr ⟨value, content, by simp, by simp, hfound, hvalue⟩
    · have hbeq : (name == other) = false := beq_false_of_ne hname
      have hfields : List.lookup name ((other, value) :: rest) = rest.lookup name := by rw [List.lookup_cons, hbeq]
      have hdecoded : List.lookup name ((found.map fun content => (other, content)).toList ++ others) =
          others.lookup name := by
        cases found with
        | none => rfl
        | some content => simp [List.lookup_cons, hbeq]
      rw [hfields, hdecoded]
      exact ih hrest hothers

/-- Fields can be decoded if each of those that a shape is known for can be. -/
theorem exists_readFields (h : ∀ field ∈ fields, ∀ shape, shapes.lookup field.1 = some shape →
    ∃ content, readField shapes field.1 field.2 = .ok (some content)) :
    ∃ decoded, readFields shapes fields = .ok decoded := by
  induction fields with
  | nil => exact ⟨[], rfl⟩
  | cons field rest ih =>
    obtain ⟨name, value⟩ := field
    obtain ⟨hfirst, hrest⟩ := List.forall_mem_cons.mp h
    obtain ⟨others, hothers⟩ := ih hrest
    have hfield : ∃ found, readField shapes name value = .ok found := by
      cases hshape : shapes.lookup name with
      | none =>
        refine ⟨none, ?_⟩
        unfold readField
        rw [hshape]
      | some shape =>
        obtain ⟨content, hcontent⟩ := hfirst shape hshape
        exact ⟨some content, hcontent⟩
    obtain ⟨found, hfound⟩ := hfield
    exact ⟨_, by rw [readFields_cons, hfound, hothers]; rfl⟩

/-- A decoded field gives content just if the field that is found encodes it. -/
theorem gives_iff (hreads : ∀ field ∈ fields, ReadsBack field.2) (h : readFields shapes fields = .ok decoded)
    {content : Content} (hshape : shapes.lookup name = some content.shape) :
    decoded.Gives name content ↔ EncodesField IsKindOrIndex (fields.lookup name) content := by
  rcases lookup_readFields hreads h hshape with ⟨hfields, hdecoded⟩ | ⟨value, other, hfields, hdecoded, hread, hvalue⟩
  · rw [hfields]
    constructor
    · intro hgives
      cases content <;> simp only [Fields.Gives, Fields.text, Fields.optionalText, Fields.texts, Fields.node,
        Fields.optionalNode, Fields.nodes, Fields.optionalNodes, hdecoded] at hgives <;> cases hgives
      · exact .noText (Or.inl rfl)
      · exact .noTexts (Or.inl rfl)
      · exact .noNode (Or.inl rfl)
      · exact .noNodes (Or.inl rfl)
      · exact .noOptionalNodes (Or.inl rfl)
    · intro hencodes
      cases hencodes <;> simp [Fields.Gives, Fields.optionalText, Fields.texts, Fields.optionalNode, Fields.nodes,
        Fields.optionalNodes, hdecoded]
  · obtain ⟨_, heq, hother, hencodes⟩ := exists_of_readField hvalue hshape hread
    cases heq
    have hgives : decoded.Gives name content ↔ other = content := by
      cases content <;> cases other <;> cases hother <;> simp [Fields.Gives, Fields.text, Fields.optionalText,
        Fields.texts, Fields.node, Fields.optionalNode, Fields.nodes, Fields.optionalNodes, hdecoded]
    rw [hgives, hfields]
    constructor
    · rintro rfl
      exact hencodes
    · intro hcontent
      have hsame := (readField_of_encodes hvalue hshape hcontent).symm.trans hread
      cases hsame
      rfl

end Fields

/-! ### Nodes -/

/-- The list of kinds has no two entries of one name. -/
private theorem nodup_kinds : (Shape.kinds.map Prod.fst).Nodup := by decide

private theorem kindNamed_eq_ok_iff {tag kind : String} {shapes : List (String × Shape)} :
    kindNamed tag = .ok (kind, shapes) ↔ tag = kind ∧ Shape.fieldsOf? kind = some shapes := by
  unfold kindNamed
  constructor
  · intro h
    split at h
    · cases h
      exact ⟨rfl, ‹_›⟩
    · cases h
  · rintro ⟨rfl, hshapes⟩
    rw [hshapes]

private theorem kindAt_eq_ok_iff {index : Nat} {kind : String} {shapes : List (String × Shape)} :
    kindAt index = .ok (kind, shapes) ↔
      Shape.kinds[index]?.map Prod.fst = some kind ∧ Shape.fieldsOf? kind = some shapes := by
  unfold kindAt
  cases hentry : Shape.kinds[index]? with
  | none => simp
  | some entry =>
    have hlookup : Shape.fieldsOf? entry.1 = some entry.2 :=
      lookup_of_mem nodup_kinds (List.mem_of_getElem? hentry)
    simp only [Except.ok.injEq, Option.map_some, Option.some.injEq]
    constructor
    · rintro rfl
      exact ⟨rfl, hlookup⟩
    · rintro ⟨rfl, hshapes⟩
      rw [hlookup, Option.some.injEq] at hshapes
      rw [← hshapes]

/-- The tags that stand for the kind of a node: an index does not at the root. -/
def IsTag (nested : Bool) (tag : Json) (node : Node) : Prop :=
  IsKindOrIndex tag node ∧ (nested = false → IsKind tag node)

private theorem kindOf_eq_ok_iff {nested : Bool} {fields : List (String × Json)} {node : Node}
    {shapes : List (String × Shape)} :
    kindOf nested fields = .ok (node.kind, shapes) ↔
      (∃ tag, fields.lookup "_nodetype" = some tag ∧ IsTag nested tag node) ∧
        Shape.fieldsOf? node.kind = some shapes := by
  unfold kindOf
  cases hlookup : fields.lookup "_nodetype" with
  | none => simp
  | some tag =>
    simp only [Option.some.injEq, exists_eq_left', IsTag, IsKindOrIndex, IsKind]
    cases tag with
    | text kind =>
      simp only [kindNamed_eq_ok_iff, Json.text.injEq, reduceCtorEq, false_and, exists_false, or_false]
      exact and_congr_left fun _ => ⟨fun h => ⟨h, fun _ => h⟩, And.left⟩
    | int index =>
      cases nested with
      | false => simp
      | true =>
        by_cases hneg : index < 0
        · have hnone : ∀ n : Nat, index ≠ n := fun n => by omega
          simp [hnone, Int.not_le.mpr hneg]
        · have hpos : 0 ≤ index := by omega
          obtain ⟨n, rfl⟩ := Int.eq_ofNat_of_zero_le hpos
          simp [kindAt_eq_ok_iff, Int.ofNat_inj]
    | _ => simp

/-- An object is read as a node just if it is a dump of the node, if that holds of the nodes in it. -/
theorem readNodeIn_object_iff {nested : Bool} {fields : List (String × Json)} (hnames : (fields.map Prod.fst).Nodup)
    (hreads : ∀ field ∈ fields, ReadsBack field.2) (node : Node) :
    readNodeIn nested (.object fields) = .ok node ↔
      (∃ tag, fields.lookup "_nodetype" = some tag ∧ IsTag nested tag node) ∧
        ∀ part ∈ node.fields, EncodesField IsKindOrIndex (fields.lookup part.1) part.2 := by
  rw [readNodeIn]
  constructor
  · intro h
    obtain ⟨⟨kind, shapes⟩, hkind, h⟩ := exists_of_bind h
    obtain ⟨decoded, hdecoded, h⟩ := exists_of_bind h
    obtain ⟨rfl, hgives⟩ := build_eq_ok_iff.mp h
    obtain ⟨htag, hshapes⟩ := kindOf_eq_ok_iff.mp hkind
    rw [fieldsOf?_kind, Option.some.injEq] at hshapes
    subst hshapes
    exact ⟨htag, fun part hpart => (gives_iff hreads hdecoded (lookup_shapes hpart)).mp (hgives part hpart)⟩
  · rintro ⟨htag, hparts⟩
    have hkind : kindOf nested fields = .ok (node.kind, node.fields.map fun part => (part.1, part.2.shape)) :=
      kindOf_eq_ok_iff.mpr ⟨htag, fieldsOf?_kind node⟩
    obtain ⟨decoded, hdecoded⟩ : ∃ decoded,
        readFields (node.fields.map fun part => (part.1, part.2.shape)) fields = .ok decoded := by
      refine exists_readFields fun field hfield shape hshape => ?_
      obtain ⟨before, after, hsplit, -⟩ := List.lookup_eq_some_iff.mp hshape
      have hmem : (field.1, shape) ∈ node.fields.map fun part => (part.1, part.2.shape) := by simp [hsplit]
      obtain ⟨part, hpart, heq⟩ := List.mem_map.mp hmem
      obtain ⟨hname, rfl⟩ := Prod.mk.inj heq
      have hencodes := hparts part hpart
      rw [hname, lookup_of_mem hnames hfield] at hencodes
      exact ⟨part.2, readField_of_encodes (hreads field hfield) hshape hencodes⟩
    have hbuild : build node.kind decoded = .ok node :=
      build_eq_ok_iff.mpr ⟨rfl, fun part hpart =>
        (gives_iff hreads hdecoded (lookup_shapes hpart)).mpr (hparts part hpart)⟩
    rw [hkind]
    simp only [bind, Except.bind, hdecoded]
    exact hbuild

/-- A nested object has any of the tags. -/
private theorem readNodeIn_nested_iff {fields : List (String × Json)} (hnames : (fields.map Prod.fst).Nodup)
    (hreads : ∀ field ∈ fields, ReadsBack field.2) (node : Node) :
    readNodeIn true (.object fields) = .ok node ↔ Encodes IsKindOrIndex (.object fields) node := by
  rw [readNodeIn_object_iff hnames hreads]
  constructor
  · rintro ⟨⟨tag, hlookup, htag, -⟩, hparts⟩
    exact .object hlookup htag hparts
  · rintro ⟨hlookup, htag, hparts⟩
    exact ⟨⟨_, hlookup, htag, fun h => by cases h⟩, hparts⟩

mutual

/-- A nested value is read as a node just if it is a dump of the node. -/
theorem readNodeIn_eq_ok_iff (json : Json) (h : json.HasDistinctNames) (node : Node) :
    readNodeIn true json = .ok node ↔ Encodes IsKindOrIndex json node := by
  match json with
  | .object fields => exact readNodeIn_nested_iff h.1 (readsBack_fields fields h.2) node
  | .null | .bool _ | .int _ | .float _ | .text _ | .array _ =>
    constructor
    · intro h
      cases h
    · intro h
      cases h

theorem readNodes_eq_ok_iff (items : List Json) (h : Json.AllDistinctNames items) (nodes : List Node) :
    readNodes items = .ok nodes ↔ EncodesAll IsKindOrIndex items nodes := by
  match items with
  | [] =>
    constructor
    · intro h
      cases h
      exact .nil
    · intro h
      cases h
      rfl
  | item :: rest =>
    have hitem := readNodeIn_eq_ok_iff item h.1
    have hrest := readNodes_eq_ok_iff rest h.2
    rw [readNodes]
    constructor
    · intro h
      obtain ⟨node, hnode, h⟩ := exists_of_bind h
      obtain ⟨others, hothers, h⟩ := exists_of_bind h
      cases h
      exact .cons ((hitem node).mp hnode) ((hrest others).mp hothers)
    · rintro (_ | ⟨hfirst, hothers⟩)
      rw [(hitem _).mpr hfirst, (hrest _).mpr hothers]
      rfl

theorem readsBack (value : Json) (h : value.HasDistinctNames) : ReadsBack value := by
  match value with
  | .array items =>
    refine ⟨readNodeIn_eq_ok_iff _ h, ?_⟩
    rintro _ ⟨⟩ nodes
    exact readNodes_eq_ok_iff items h nodes
  | .object fields => exact ⟨readNodeIn_nested_iff h.1 (readsBack_fields fields h.2), fun items heq => by cases heq⟩
  | .null | .bool _ | .int _ | .float _ | .text _ => exact ⟨readNodeIn_eq_ok_iff _ h, fun items heq => by cases heq⟩

theorem readsBack_fields (fields : List (String × Json)) (h : Json.FieldsDistinctNames fields) :
    ∀ field ∈ fields, ReadsBack field.2 := by
  match fields with
  | [] => exact fun field hfield => by cases hfield
  | (_, value) :: rest => exact List.forall_mem_cons.mpr ⟨readsBack value h.1, readsBack_fields rest h.2⟩

end

/-- The value found under the name of the tag. -/
def tagOf? : Json → Option Json
  | .object fields => fields.lookup "_nodetype"
  | _ => none

/-- The root is read as a node just if it is a dump of the node, with the kind of the node for its own tag. -/
private theorem readNode_eq_ok_iff (json : Json) (h : json.HasDistinctNames) (node : Node) :
    readNode json = .ok node ↔ tagOf? json = some (.text node.kind) ∧ Encodes IsKindOrIndex json node := by
  cases json with
  | object fields =>
    rw [readNode, readNodeIn_object_iff h.1 (readsBack_fields fields h.2), tagOf?]
    constructor
    · rintro ⟨⟨tag, hlookup, htag, hroot⟩, hparts⟩
      obtain rfl := hroot rfl
      exact ⟨hlookup, .object hlookup htag hparts⟩
    · rintro ⟨hlookup, -, -, hparts⟩
      exact ⟨⟨_, hlookup, Or.inl rfl, fun _ => rfl⟩, hparts⟩
  | _ =>
    constructor
    · intro h
      cases h
    · rintro ⟨-, ⟨⟩⟩

private theorem readUnit_eq_ok_iff_readNode {json : Json} {node : Node} :
    readUnit json = .ok node ↔ (∃ items, node = .unit items) ∧ readNode json = .ok node := by
  unfold readUnit
  constructor
  · intro hunit
    obtain ⟨found, hfound, hunit⟩ := exists_of_bind hunit
    cases hnode : readNode json with
    | error cause =>
      rw [hnode] at hfound
      cases hfound
    | ok value =>
      rw [hnode] at hfound
      cases hfound
      cases found with
      | unit items =>
        cases hunit
        exact ⟨⟨items, rfl⟩, rfl⟩
      | _ => cases hunit
  · rintro ⟨⟨items, rfl⟩, hread⟩
    rw [hread]
    rfl

/-- The reader inverts the dump.  A dump of a unit, in which the tag of every node is its kind, is read as the unit; and
a value is read as a unit just if it is a dump of it, in which the tag of a nested node may also be the place of its
kind in the list of kinds. -/
theorem readUnit_dump {json : Json} (h : json.HasDistinctNames) (items : List Node) :
    (Encodes IsKind json (.unit items) → readUnit json = .ok (.unit items)) ∧
      ∀ node, readUnit json = .ok node ↔
        (∃ items, node = .unit items) ∧ tagOf? json = some (.text "FileAST") ∧ Encodes IsKindOrIndex json node := by
  have hread : ∀ node, readUnit json = .ok node ↔
      (∃ items, node = .unit items) ∧ tagOf? json = some (.text "FileAST") ∧ Encodes IsKindOrIndex json node := by
    intro node
    rw [readUnit_eq_ok_iff_readNode, readNode_eq_ok_iff json h]
    constructor
    · rintro ⟨⟨items, rfl⟩, hdump⟩
      exact ⟨⟨items, rfl⟩, hdump⟩
    · rintro ⟨⟨items, rfl⟩, hdump⟩
      exact ⟨⟨items, rfl⟩, hdump⟩
  refine ⟨fun hdump => (hread _).mpr ⟨⟨items, rfl⟩, ?_, hdump.mono fun _ _ => Or.inl⟩, hread⟩
  obtain ⟨hlookup, hkind, -⟩ := hdump
  rw [tagOf?, hlookup, hkind]
  rfl

/-- A dump of a unit that uses a variable, with a field that is none of its parts, is read as the unit. -/
theorem readUnit_dump_of_variable :
    let json : Json := .object [("_nodetype", .text "FileAST"), ("coord", .null),
      ("ext", .array [.object [("_nodetype", .text "ID"), ("name", .text "x")]])]
    json.HasDistinctNames ∧ readUnit json = .ok (.unit [.ident "x"]) := by
  intro json
  have hnames : json.HasDistinctNames := by
    simp [json, Json.HasDistinctNames, Json.FieldsDistinctNames, Json.AllDistinctNames]
  have hvariable : Encodes IsKind (.object [("_nodetype", .text "ID"), ("name", .text "x")]) (.ident "x") :=
    .object rfl rfl (List.forall_mem_singleton.mpr (.text "x"))
  have hunit : Encodes IsKind json (.unit [.ident "x"]) :=
    .object rfl rfl (List.forall_mem_singleton.mpr (.nodes (.cons hvariable .nil)))
  exact ⟨hnames, (readUnit_dump hnames [.ident "x"]).1 hunit⟩

private theorem encodesAll_of_array {Tags : Json → Node → Prop} {items : List Json} {nodes : List Node}
    (h : EncodesField Tags (some (.array items)) (.nodes nodes)) : EncodesAll Tags items nodes := by
  cases h with
  | nodes hall => exact hall
  | noNodes habsent => simp [IsAbsent] at habsent

/-- A unit in which a node is tagged by the place of its kind is read, though the tag is not the kind. -/
theorem readUnit_of_index :
    let json : Json := .object [("_nodetype", .text "FileAST"),
      ("ext", .array [.object [("_nodetype", .int 46), ("string", .text "once")]])]
    json.HasDistinctNames ∧ readUnit json = .ok (.unit [.pragma (some "once")]) ∧
      ¬Encodes IsKind json (.unit [.pragma (some "once")]) := by
  intro json
  refine ⟨?_, rfl, ?_⟩
  · simp [json, Json.HasDistinctNames, Json.FieldsDistinctNames, Json.AllDistinctNames]
  · intro hdump
    change Encodes IsKind (.object _) _ at hdump
    obtain ⟨-, -, hparts⟩ := hdump
    cases encodesAll_of_array (hparts _ (List.mem_singleton_self _)) with
    | cons hitem _ =>
      obtain ⟨htag, hkind, -⟩ := hitem
      cases htag
      cases hkind

end StubGen.CUnit
