import StubGen.CUnit.Reader

/-!
# Encodings of syntax trees

`Encodes Tags json node` says that `json` is a dump of `node`: an object with a tag of the node, in which each part of
the node is encoded in the field of its name.  Objects may have further fields.

* `IsKind` and `IsKindOrIndex` tell what may be the tag of a node.
* `Node.fields` lists the parts of a node with the names of their fields.
* `EncodesField` tells how a field is encoded, and what may be absent or null.
-/

namespace StubGen

mutual

/-- No object in the value has two fields of one name. -/
def Json.HasDistinctNames : Json → Prop
  | .array items => AllDistinctNames items
  | .object fields => (fields.map Prod.fst).Nodup ∧ FieldsDistinctNames fields
  | _ => True
termination_by structural value => value

def Json.AllDistinctNames : List Json → Prop
  | [] => True
  | item :: rest => item.HasDistinctNames ∧ AllDistinctNames rest
termination_by structural items => items

def Json.FieldsDistinctNames : List (String × Json) → Prop
  | [] => True
  | (_, value) :: rest => value.HasDistinctNames ∧ FieldsDistinctNames rest
termination_by structural fields => fields

end

/-- Among entries of different names, each is found under its own. -/
theorem lookup_of_mem {β : Type} {entries : List (String × β)} {entry : String × β}
    (hnames : (entries.map Prod.fst).Nodup) (h : entry ∈ entries) : entries.lookup entry.1 = some entry.2 := by
  induction entries with
  | nil => cases h
  | cons first rest ih =>
    rw [List.map_cons, List.nodup_cons] at hnames
    rw [List.lookup_cons]
    rcases List.mem_cons.mp h with rfl | hrest
    · simp
    · have hne : entry.1 ≠ first.1 := fun heq => hnames.1 (heq ▸ List.mem_map_of_mem hrest)
      rw [beq_false_of_ne hne]
      exact ih hnames.2 hrest

namespace CUnit

/-- The parts of a node, each with the name of its field. -/
def Node.fields : Node → List (String × Content)
  | unit items => [("ext", .nodes items)]
  | function proto paramDecls body => [("decl", .node proto), ("param_decls", .nodes paramDecls), ("body", .node body)]
  | decl name quals storage type init width =>
    [("name", .optionalText name), ("quals", .texts quals), ("storage", .texts storage), ("type", .node type),
      ("init", .optionalNode init), ("bitsize", .optionalNode width)]
  | declList decls => [("decls", .nodes decls)]
  | typeDecl name type => [("declname", .optionalText name), ("type", .node type)]
  | identifierType names => [("names", .texts names)]
  | pointer target => [("type", .node target)]
  | array element size => [("type", .node element), ("dim", .optionalNode size)]
  | functionType params result => [("args", .optionalNode params), ("type", .node result)]
  | paramList params => [("params", .nodes params)]
  | ellipsis => []
  | typedef name type => [("name", .text name), ("type", .node type)]
  | typename name type => [("name", .optionalText name), ("type", .node type)]
  | struct name members => [("name", .optionalText name), ("decls", .optionalNodes members)]
  | union name members => [("name", .optionalText name), ("decls", .optionalNodes members)]
  | enum name values => [("name", .optionalText name), ("values", .optionalNode values)]
  | enumeratorList enumerators => [("enumerators", .nodes enumerators)]
  | enumerator name value => [("name", .text name), ("value", .optionalNode value)]
  | constant type value => [("type", .text type), ("value", .text value)]
  | ident name => [("name", .text name)]
  | binary op left right => [("op", .text op), ("left", .node left), ("right", .node right)]
  | unary op operand => [("op", .text op), ("expr", .node operand)]
  | assign op target value => [("op", .text op), ("lvalue", .node target), ("rvalue", .node value)]
  | ternary cond whenTrue whenFalse => [("cond", .node cond), ("iftrue", .node whenTrue), ("iffalse", .node whenFalse)]
  | call callee args => [("name", .node callee), ("args", .optionalNode args)]
  | subscript base index => [("name", .node base), ("subscript", .node index)]
  | member base access field => [("name", .node base), ("type", .text access), ("field", .node field)]
  | cast type operand => [("to_type", .node type), ("expr", .node operand)]
  | exprList exprs => [("exprs", .nodes exprs)]
  | initList exprs => [("exprs", .nodes exprs)]
  | designated path value => [("name", .nodes path), ("expr", .node value)]
  | compoundLiteral type init => [("type", .node type), ("init", .node init)]
  | block items => [("block_items", .nodes items)]
  | ifElse cond whenTrue whenFalse =>
    [("cond", .node cond), ("iftrue", .node whenTrue), ("iffalse", .optionalNode whenFalse)]
  | forLoop init cond next body =>
    [("init", .optionalNode init), ("cond", .optionalNode cond), ("next", .optionalNode next), ("stmt", .node body)]
  | whileLoop cond body => [("cond", .node cond), ("stmt", .node body)]
  | doLoop cond body => [("cond", .node cond), ("stmt", .node body)]
  | switch cond body => [("cond", .node cond), ("stmt", .node body)]
  | caseLabel label stmts => [("expr", .node label), ("stmts", .nodes stmts)]
  | defaultLabel stmts => [("stmts", .nodes stmts)]
  | breakJump => []
  | continueJump => []
  | returnJump value => [("expr", .optionalNode value)]
  | gotoJump label => [("name", .text label)]
  | labelled label stmt => [("name", .text label), ("stmt", .node stmt)]
  | empty => []
  | pragma text => [("string", .optionalText text)]
  | staticAssert cond note => [("cond", .node cond), ("message", .optionalNode note)]

/-- The tag is the kind of the node. -/
def IsKind (tag : Json) (node : Node) : Prop := tag = .text node.kind

/-- The tag is the kind of the node, or the place of the kind in the list of kinds. -/
def IsKindOrIndex (tag : Json) (node : Node) : Prop :=
  IsKind tag node ∨ ∃ index : Nat, tag = .int index ∧ Shape.kinds[index]?.map Prod.fst = some node.kind

/-- A field that is not there, or null. -/
def IsAbsent (found : Option Json) : Prop := found = none ∨ found = some .null

mutual

/-- The value is a dump of the node. -/
inductive Encodes (Tags : Json → Node → Prop) : Json → Node → Prop
  | object {fields : List (String × Json)} {tag : Json} {node : Node} : fields.lookup "_nodetype" = some tag →
      Tags tag node → (∀ part ∈ node.fields, EncodesField Tags (fields.lookup part.1) part.2) →
      Encodes Tags (.object fields) node

/-- The value found in a field encodes its content.  Of a node's parts only texts and nodes have to be there; the
absence of a list that has to be there is the empty list. -/
inductive EncodesField (Tags : Json → Node → Prop) : Option Json → Content → Prop
  | text (value : String) : EncodesField Tags (some (.text value)) (.text value)
  | optionalText (value : String) : EncodesField Tags (some (.text value)) (.optionalText (some value))
  | noText {found : Option Json} : IsAbsent found → EncodesField Tags found (.optionalText none)
  | texts (values : List String) : EncodesField Tags (some (.array (values.map .text))) (.texts values)
  | noTexts {found : Option Json} : IsAbsent found → EncodesField Tags found (.texts [])
  | node {json : Json} {node : Node} : Encodes Tags json node → EncodesField Tags (some json) (.node node)
  | optionalNode {json : Json} {node : Node} : Encodes Tags json node →
      EncodesField Tags (some json) (.optionalNode (some node))
  | noNode {found : Option Json} : IsAbsent found → EncodesField Tags found (.optionalNode none)
  | nodes {items : List Json} {nodes : List Node} : EncodesAll Tags items nodes →
      EncodesField Tags (some (.array items)) (.nodes nodes)
  | noNodes {found : Option Json} : IsAbsent found → EncodesField Tags found (.nodes [])
  | optionalNodes {items : List Json} {nodes : List Node} : EncodesAll Tags items nodes →
      EncodesField Tags (some (.array items)) (.optionalNodes (some nodes))
  | noOptionalNodes {found : Option Json} : IsAbsent found → EncodesField Tags found (.optionalNodes none)

/-- The values are dumps of the nodes, one after the other. -/
inductive EncodesAll (Tags : Json → Node → Prop) : List Json → List Node → Prop
  | nil : EncodesAll Tags [] []
  | cons {json : Json} {node : Node} {rest : List Json} {others : List Node} : Encodes Tags json node →
      EncodesAll Tags rest others → EncodesAll Tags (json :: rest) (node :: others)

end

mutual

/-- With more tags there are more dumps. -/
theorem Encodes.mono {Tags More : Json → Node → Prop} (hmore : ∀ tag node, Tags tag node → More tag node) {json : Json}
    {node : Node} : Encodes Tags json node → Encodes More json node
  | .object htag hkind hparts => .object htag (hmore _ _ hkind) fun part hpart => (hparts part hpart).mono hmore

theorem EncodesField.mono {Tags More : Json → Node → Prop} (hmore : ∀ tag node, Tags tag node → More tag node)
    {found : Option Json} {content : Content} : EncodesField Tags found content → EncodesField More found content
  | .text value => .text value
  | .optionalText value => .optionalText value
  | .noText h => .noText h
  | .texts values => .texts values
  | .noTexts h => .noTexts h
  | .node h => .node (h.mono hmore)
  | .optionalNode h => .optionalNode (h.mono hmore)
  | .noNode h => .noNode h
  | .nodes h => .nodes (h.mono hmore)
  | .noNodes h => .noNodes h
  | .optionalNodes h => .optionalNodes (h.mono hmore)
  | .noOptionalNodes h => .noOptionalNodes h

theorem EncodesAll.mono {Tags More : Json → Node → Prop} (hmore : ∀ tag node, Tags tag node → More tag node)
    {items : List Json} {nodes : List Node} : EncodesAll Tags items nodes → EncodesAll More items nodes
  | .nil => .nil
  | .cons hnode hrest => .cons (hnode.mono hmore) (hrest.mono hmore)

end

/-- The parts of a node are not larger than the node. -/
private theorem sizeOf_part_le (node : Node) : ∀ part ∈ node.fields, sizeOf part.2 ≤ sizeOf node := by
  cases node <;> simp [Node.fields] <;> omega

/-- The names of the parts are different from each other and from that of the tag. -/
private theorem nodup_names (node : Node) : ("_nodetype" :: node.fields.map Prod.fst).Nodup := by
  cases node <;> simp [Node.fields]

/-- Parts that can be encoded one by one can be encoded side by side. -/
private theorem exists_entries {parts : List (String × Content)} (hnames : (parts.map Prod.fst).Nodup)
    (h : ∀ part ∈ parts, ∃ json : Json, json.HasDistinctNames ∧ EncodesField IsKind (some json) part.2) :
    ∃ entries : List (String × Json), entries.map Prod.fst = parts.map Prod.fst ∧
      Json.FieldsDistinctNames entries ∧ ∀ part ∈ parts, EncodesField IsKind (entries.lookup part.1) part.2 := by
  induction parts with
  | nil => exact ⟨[], rfl, trivial, by simp⟩
  | cons first rest ih =>
    rw [List.map_cons, List.nodup_cons] at hnames
    obtain ⟨⟨json, hjson, hfirst⟩, hrest⟩ := List.forall_mem_cons.mp h
    obtain ⟨entries, heq, hdistinct, hentries⟩ := ih hnames.2 hrest
    refine ⟨(first.1, json) :: entries, by rw [List.map_cons, List.map_cons, heq], ⟨hjson, hdistinct⟩,
      List.forall_mem_cons.mpr ⟨?_, fun part hpart => ?_⟩⟩
    · rw [List.lookup_cons_self]
      exact hfirst
    · have hne : part.1 ≠ first.1 := fun heq => hnames.1 (heq ▸ List.mem_map_of_mem hpart)
      rw [List.lookup_cons, beq_false_of_ne hne]
      exact hentries part hpart

mutual

/-- Every node has a dump. -/
theorem exists_encodes (node : Node) : ∃ json : Json, json.HasDistinctNames ∧ Encodes IsKind json node := by
  have hparts : ∀ part ∈ node.fields,
      ∃ json : Json, json.HasDistinctNames ∧ EncodesField IsKind (some json) part.2 := by
    intro part hpart
    have hsize := sizeOf_part_le node part hpart
    obtain ⟨name, content⟩ := part
    cases content with
    | text value => exact ⟨.text value, trivial, .text value⟩
    | optionalText value =>
      cases value with
      | none => exact ⟨.null, trivial, .noText (Or.inr rfl)⟩
      | some value => exact ⟨.text value, trivial, .optionalText value⟩
    | texts values =>
      refine ⟨.array (values.map .text), ?_, .texts values⟩
      change Json.AllDistinctNames (values.map .text)
      clear hsize hpart
      induction values with
      | nil => trivial
      | cons value rest ih => exact ⟨trivial, ih⟩
    | node value =>
      obtain ⟨json, hjson, hvalue⟩ := exists_encodes value
      exact ⟨json, hjson, .node hvalue⟩
    | optionalNode value =>
      cases value with
      | none => exact ⟨.null, trivial, .noNode (Or.inr rfl)⟩
      | some value =>
        obtain ⟨json, hjson, hvalue⟩ := exists_encodes value
        exact ⟨json, hjson, .optionalNode hvalue⟩
    | nodes values =>
      obtain ⟨items, hitems, hvalues⟩ := exists_encodesAll values
      exact ⟨.array items, hitems, .nodes hvalues⟩
    | optionalNodes values =>
      cases values with
      | none => exact ⟨.null, trivial, .noOptionalNodes (Or.inr rfl)⟩
      | some values =>
        obtain ⟨items, hitems, hvalues⟩ := exists_encodesAll values
        exact ⟨.array items, hitems, .optionalNodes hvalues⟩
  have hnames := nodup_names node
  obtain ⟨entries, heq, hdistinct, hentries⟩ := exists_entries (List.nodup_cons.mp hnames).2 hparts
  refine ⟨.object (("_nodetype", .text node.kind) :: entries), ⟨?_, trivial, hdistinct⟩, .object rfl rfl ?_⟩
  · rw [List.map_cons, heq]
    exact hnames
  · intro part hpart
    have hne : part.1 ≠ "_nodetype" := fun htag =>
      (List.nodup_cons.mp hnames).1 (htag ▸ List.mem_map_of_mem hpart)
    rw [List.lookup_cons, beq_false_of_ne hne]
    exact hentries part hpart
termination_by sizeOf node
decreasing_by all_goals simp at hsize; omega

theorem exists_encodesAll (nodes : List Node) :
    ∃ items : List Json, Json.AllDistinctNames items ∧ EncodesAll IsKind items nodes := by
  match nodes with
  | [] => exact ⟨[], trivial, .nil⟩
  | node :: rest =>
    obtain ⟨json, hjson, hnode⟩ := exists_encodes node
    obtain ⟨items, hitems, hrest⟩ := exists_encodesAll rest
    exact ⟨json :: items, ⟨hjson, hitems⟩, .cons hnode hrest⟩
termination_by sizeOf nodes

end

end CUnit

end StubGen
