import StubGen.Proofs.Isolation.Context

/-!
# Faults stay where they are

A node of a kind that its reader does not know spoils nothing but itself: the rest of the file is read as it is with
any other node in that place (`readSource_replaceAt`).

* `Slot.plugs` is the step: what is read from a node depends on what is read from a part of it through a frame.
* `Position.plugs` is the run along a path.
-/

namespace StubGen.DeclFile

open Json

/-! ### Results of reading -/

section

variable {α β : Type}

private theorem bind_eq_ok_iff {first : Read α} {next : α → Read β} {value : β} :
    (first >>= next) = .ok value ↔ ∃ found, first = .ok found ∧ next found = .ok value := by
  cases first with
  | error cause => exact ⟨nofun, nofun⟩
  | ok found => exact ⟨fun h => ⟨found, rfl, h⟩, fun ⟨_, h, hnext⟩ => by cases h; exact hnext⟩

private theorem pure_eq_ok_iff {found value : α} : (pure found : Read α) = .ok value ↔ found = value :=
  ⟨Except.ok.inj, congrArg Except.ok⟩

private theorem ok_bind (found : α) (next : α → Read β) : (Except.ok found >>= next : Read β) = next found := rfl

end

/-! ### Readers by the fields that they look at -/

section

variable {α β : Type} {node child new : Json} {place : Place} {field : String} {index : Nat}

/-- What is read from a field that has to be there. -/
private def readIn (node : Json) (field : String) (read : Json → Read α) : Read α :=
  match node.present? field with
  | some child => read child
  | none => missing node field

private theorem part?_eq (node : Json) (field : String) :
    (node.part? field).map Subtype.val = node.present? field := by
  unfold part? present?
  split
  · next child h => cases hnull : child.isNull <;> simp [h, hnull, Option.filter_some]
  · next h => simp [h]

private theorem parts_eq (node : Json) (field : String) : (node.parts field).map Subtype.val = node.items field := by
  unfold parts items
  split
  · next items h => simp [h, asArray?]
  · next h =>
    cases hget : node.get? field with
    | none => rfl
    | some value =>
      cases value with
      | array items => exact absurd hget (h items)
      | _ => rfl

private theorem mapM_parts (node : Json) (field : String) (read : Json → Read α) :
    (node.parts field).mapM (fun part => read part.1) = readList node field read := by
  change _ = (node.items field).mapM read
  rw [← parts_eq, List.mapM_map]
  rfl

private theorem need_bind (node : Json) (field : String) (read : Json → Read α) :
    (need node field >>= fun part => read part.1) = readIn node field read := by
  rw [need, readIn, ← part?_eq]
  cases node.part? field <;> rfl

private theorem need_bind_bind (node : Json) (field : String) (read : Json → Read α) (next : α → Read β) :
    (need node field >>= fun part => read part.1 >>= next) = readIn node field read >>= next := by
  rw [← need_bind, bind_assoc]

private theorem readOptionalType_eq (node : Json) :
    readOptionalType node = (match node.present? "type" with
      | some child => do return some (← readType child)
      | none => return none) := by
  rw [readOptionalType, ← part?_eq]
  cases node.part? "type" <;> rfl

/-! ### What does not change -/

private theorem kindOf_replace (h : place.name ≠ "kind") : kindOf (node.replace place new) = kindOf node := by
  rw [kindOf, kindOf, get?_replace_of_ne h.symm]

private theorem readName_replace (h : place.name ≠ "kind") (hname : place.name ≠ "name") :
    readName (node.replace place new) = readName node := by
  rw [readName, readName, present?_replace_of_ne hname.symm, kindOf_replace h]

private theorem hasToken_replace (h : place.name ≠ field) :
    hasToken (node.replace place new) field = hasToken node field := by
  rw [hasToken, hasToken, present?_replace_of_ne h.symm]

private theorem hasModifier_replace (h : place.name ≠ "modifiers") :
    hasModifier (node.replace place new) field = hasModifier node field := by
  rw [hasModifier, hasModifier, get?_replace_of_ne h.symm]

private theorem operatorOf_replace (h : place.name ≠ "operator") :
    operatorOf (node.replace place new) = operatorOf node := by
  rw [operatorOf, operatorOf, get?_replace_of_ne h.symm]

private theorem readList_replace {read : Json → Read α} (h : place.name ≠ field) :
    readList (node.replace place new) field read = readList node field read := by
  rw [readList, readList, get?_replace_of_ne h.symm]

private theorem readOptionalType_replace (h : place.name ≠ "type") :
    readOptionalType (node.replace place new) = readOptionalType node := by
  rw [readOptionalType_eq, readOptionalType_eq, present?_replace_of_ne h.symm]

private theorem readIn_replace {read : Json → Read α} (h : place.name ≠ "kind") (hfield : place.name ≠ field) :
    readIn (node.replace place new) field read = readIn node field read := by
  rw [readIn, readIn, missing, missing, present?_replace_of_ne hfield.symm, kindOf_replace h]

/-! ### What changes -/

/-- A needed field is read by itself. -/
private theorem plugs_readIn {read : Json → Read α} {value : α} (hchild : node.child? (.field field) = some child)
    (hread : readIn node field read = .ok value) :
    read child = .ok value ∧ ∀ new part', new.isNull = false → read new = .ok part' →
      readIn (node.replace (.field field) new) field read = .ok part' := by
  have hpresent : node.present? field = some child := hchild
  rw [readIn, hpresent] at hread
  refine ⟨hread, fun new part' hnull hnew => ?_⟩
  rw [readIn, present?_replace_field hchild hnull]
  exact hnew

/-- One item of a list is read by itself. -/
private theorem plugs_readList {read : Json → Read α} {values : List α}
    (hchild : node.child? (.item field index) = some child) (hread : readList node field read = .ok values) :
    ∃ before part after, read child = .ok part ∧ values = before ++ part :: after ∧
      ∀ new part', read new = .ok part' →
        readList (node.replace (.item field index) new) field read = .ok (before ++ part' :: after) := by
  have hitem : (node.items field)[index]? = some child := hchild
  obtain ⟨hlt, rfl⟩ := List.getElem?_eq_some_iff.mp hitem
  have hsplit : node.items field =
      (node.items field).take index ++ (node.items field)[index] :: (node.items field).drop (index + 1) := by
    rw [← List.drop_eq_getElem_cons hlt, List.take_append_drop]
  change (node.items field).mapM read = _ at hread
  rw [hsplit, List.mapM_append] at hread
  simp only [List.mapM_cons, bind_eq_ok_iff, pure_eq_ok_iff] at hread
  obtain ⟨before, hbefore, _, ⟨part, hpart, after, hafter, rfl⟩, rfl⟩ := hread
  refine ⟨before, part, after, hpart, rfl, fun new part' hnew => ?_⟩
  change (items _ field).mapM read = _
  rw [items_replace_item hchild, List.set_eq_take_append_cons_drop, if_pos hlt, List.mapM_append]
  simp only [List.mapM_cons, hbefore, hnew, hafter, ok_bind]
  rfl

/-- An optional type is read by itself. -/
private theorem plugs_readOptionalType {result : Option TypeExpr} (hchild : node.child? (.field "type") = some child)
    (hread : readOptionalType node = .ok result) :
    ∃ part, readType child = .ok part ∧ result = some part ∧
      ∀ new part', new.isNull = false → readType new = .ok part' →
        readOptionalType (node.replace (.field "type") new) = .ok (some part') := by
  have hpresent : node.present? "type" = some child := hchild
  rw [readOptionalType_eq, hpresent] at hread
  obtain ⟨part, hpart, hsome⟩ := bind_eq_ok_iff.mp hread
  refine ⟨part, hpart, (pure_eq_ok_iff.mp hsome).symm, fun new part' hnull hnew => ?_⟩
  rw [readOptionalType_eq, present?_replace_field hchild hnull]
  change readType new >>= _ = _
  rw [hnew]
  rfl

end

/-! ### Unknown kinds -/

private theorem keywordOf?_of_notMem {kind : String} (h : kind ∉ Tolerant.kinds .type) : keywordOf? kind = none := by
  refine List.find?_eq_none.mpr fun keyword hmem heq => h (List.mem_append_left _ ?_)
  exact List.mem_map.mpr ⟨keyword, hmem, of_decide_eq_true heq⟩

/-- A reader keeps a node of a kind that it does not know. -/
theorem Tolerant.read_unsupported (reader : Tolerant) {node : Json} {kind : String} (hkind : kindOf node = .ok kind)
    (hunknown : kind ∉ reader.kinds) : reader.role.read node = .ok (reader.unsupported kind) := by
  cases reader with
  | statement =>
    change readStatement node = .ok (.unsupported kind)
    rw [readStatement, hkind, ok_bind]
    split
    case h_9 => rfl
    all_goals exact absurd (by decide) hunknown
  | member =>
    change readMember node = .ok (.unsupported kind)
    rw [readMember, hkind, ok_bind]
    split
    case h_7 => rfl
    all_goals exact absurd (by decide) hunknown
  | type =>
    change readType node = .ok (.unsupported kind)
    rw [readType, hkind, ok_bind, keywordOf?_of_notMem hunknown]
    dsimp only
    split
    case h_19 => rfl
    all_goals exact absurd (by decide) hunknown

/-! ### Readers by kind -/

section

variable {node new : Json} {place : Place}

private theorem HasKind.replace {kinds : List String} (h : HasKind node kinds) (hplace : place.name ≠ "kind") :
    HasKind (node.replace place new) kinds := by
  obtain ⟨kind, hmem, hkind⟩ := h
  exact ⟨kind, hmem, (kindOf_replace hplace).trans hkind⟩

private theorem HasKind.elim {kind : String} (h : HasKind node [kind]) : kindOf node = .ok kind := by
  obtain ⟨_, hmem, hkind⟩ := h
  rwa [List.mem_singleton.mp hmem] at hkind

private theorem HasKind.cases {kind : String} {kinds : List String} (h : HasKind node (kind :: kinds)) :
    kindOf node = .ok kind ∨ HasKind node kinds := by
  obtain ⟨found, hmem, hkind⟩ := h
  rcases List.mem_cons.mp hmem with rfl | hrest
  · exact .inl hkind
  · exact .inr ⟨found, hrest, hkind⟩

private theorem keywordOf?_eq_none {kind : String} (h : kind ∈ ["ParenthesizedType", "FunctionType", "ConstructorType",
    "UnionType", "IntersectionType", "ArrayType", "TupleType", "NamedTupleMember", "OptionalType", "RestType",
    "TypeLiteral", "TypeReference", "ExpressionWithTypeArguments", "TypeOperator"]) : keywordOf? kind = none := by
  revert kind
  decide

private theorem readStatement_class (h : HasKind node ["ClassDeclaration"]) :
    readStatement node = do return .classDecl (← readClass node) := by
  rw [readStatement, h.elim, ok_bind]
  rfl

private theorem readStatement_interface (h : HasKind node ["InterfaceDeclaration"]) :
    readStatement node = do return .interface (← readClass node) := by
  rw [readStatement, h.elim, ok_bind]
  rfl

private theorem readStatement_function (h : HasKind node ["FunctionDeclaration"]) :
    readStatement node = do
      return .function (← readName node) (← readList node "parameters" readParam) (← readOptionalType node) := by
  rw [readStatement, h.elim, ok_bind]
  rfl

private theorem readStatement_alias (h : HasKind node ["TypeAliasDeclaration"]) :
    readStatement node = do
      return .typeAlias (← readName node) (← readIn node "type" readType) := by
  rw [readStatement, h.elim, ok_bind]
  simp only [need_bind_bind]

private theorem readStatement_variables (h : HasKind node ["VariableStatement", "FirstStatement"]) :
    readStatement node = do
      let declared ← readIn node "declarationList" fun list => readList list "declarations" readVariable
      return .variableDecls declared := by
  rcases h.cases with hkind | hkind
  · rw [readStatement, hkind, ok_bind]
    exact need_bind_bind node "declarationList" (fun list => readList list "declarations" readVariable) _
  · rw [readStatement, hkind.elim, ok_bind]
    exact need_bind_bind node "declarationList" (fun list => readList list "declarations" readVariable) _

private theorem readMember_property (h : HasKind node ["PropertyDeclaration", "PropertySignature"]) :
    readMember node = do
      return .property (← readName node) (← readOptionalType node) (hasToken node "questionToken")
        (hasModifier node "ReadonlyKeyword") (hasModifier node "StaticKeyword") := by
  rcases h.cases with hkind | hkind
  · rw [readMember, hkind, ok_bind]
    rfl
  · rw [readMember, hkind.elim, ok_bind]
    rfl

private theorem readMember_method (h : HasKind node ["MethodDeclaration", "MethodSignature"]) :
    readMember node = do
      return .method (← readName node) (← readList node "parameters" readParam) (← readOptionalType node) := by
  rcases h.cases with hkind | hkind
  · rw [readMember, hkind, ok_bind]
    simp only [mapM_parts]
  · rw [readMember, hkind.elim, ok_bind]
    simp only [mapM_parts]

private theorem readMember_constructor (h : HasKind node ["Constructor", "ConstructSignature"]) :
    readMember node = do
      return .constructor (← readList node "parameters" readParam) := by
  rcases h.cases with hkind | hkind
  · rw [readMember, hkind, ok_bind]
    simp only [mapM_parts]
  · rw [readMember, hkind.elim, ok_bind]
    simp only [mapM_parts]

private theorem readType_parenthesized (h : HasKind node ["ParenthesizedType"]) :
    readType node = do return .parenthesized (← readIn node "type" readType) := by
  rw [readType, h.elim, ok_bind, keywordOf?_eq_none (by decide)]
  simp only [need_bind_bind]

private theorem readType_function (h : HasKind node ["FunctionType", "ConstructorType"]) :
    readType node = do
      return .function (← readList node "parameters" readParam) (← readOptionalType node) := by
  rcases h.cases with hkind | hkind
  · rw [readType, hkind, ok_bind, keywordOf?_eq_none (by decide)]
    simp only [mapM_parts]
  · rw [readType, hkind.elim, ok_bind, keywordOf?_eq_none (by decide)]
    simp only [mapM_parts]

private theorem readType_union (h : HasKind node ["UnionType"]) :
    readType node = do return .union (← readList node "types" readType) := by
  rw [readType, h.elim, ok_bind, keywordOf?_eq_none (by decide)]
  simp only [mapM_parts]

private theorem readType_intersection (h : HasKind node ["IntersectionType"]) :
    readType node = do return .intersection (← readList node "types" readType) := by
  rw [readType, h.elim, ok_bind, keywordOf?_eq_none (by decide)]
  simp only [mapM_parts]

private theorem readType_array (h : HasKind node ["ArrayType"]) :
    readType node = do return .array (← readIn node "elementType" readType) := by
  rw [readType, h.elim, ok_bind, keywordOf?_eq_none (by decide)]
  simp only [need_bind_bind]

private theorem readType_tuple (h : HasKind node ["TupleType"]) :
    readType node = do return .tuple (← readList node "elements" readType) := by
  rw [readType, h.elim, ok_bind, keywordOf?_eq_none (by decide)]
  simp only [mapM_parts]

private theorem readType_wrapper (h : HasKind node ["NamedTupleMember", "OptionalType", "RestType"]) :
    readType node = readIn node "type" readType := by
  rcases h.cases with hkind | h
  · rw [readType, hkind, ok_bind, keywordOf?_eq_none (by decide)]
    simp only [need_bind]
  rcases h.cases with hkind | hkind
  · rw [readType, hkind, ok_bind, keywordOf?_eq_none (by decide)]
    simp only [need_bind]
  · rw [readType, hkind.elim, ok_bind, keywordOf?_eq_none (by decide)]
    simp only [need_bind]

private theorem readType_reference (h : HasKind node ["TypeReference"]) :
    readType node = do
      return .reference (← readIn node "typeName" readEntity) (← readList node "typeArguments" readType) := by
  rw [readType, h.elim, ok_bind, keywordOf?_eq_none (by decide)]
  simp only [need_bind_bind, mapM_parts]

private theorem readType_extended (h : HasKind node ["ExpressionWithTypeArguments"]) :
    readType node = do
      return .reference (← readIn node "expression" readEntity) (← readList node "typeArguments" readType) := by
  rw [readType, h.elim, ok_bind, keywordOf?_eq_none (by decide)]
  simp only [need_bind_bind, mapM_parts]

private theorem readType_members (h : HasKind node ["TypeLiteral"]) :
    readType node = do return .members (← readList node "members" readMember) := by
  rw [readType, h.elim, ok_bind, keywordOf?_eq_none (by decide)]
  simp only [mapM_parts]

private theorem readType_operator (h : HasKind node ["TypeOperator"]) :
    readType node = do
      return .operator (operatorOf node) (← readIn node "type" readType) := by
  rw [readType, h.elim, ok_bind, keywordOf?_eq_none (by decide)]
  simp only [need_bind_bind]

private theorem readBase_eq (node : Json) : readBase node = do
      return ⟨← readIn node "expression" readEntity, ← readList node "typeArguments" readType⟩ := by
  rw [readBase]
  exact need_bind_bind node "expression" readEntity _

end

/-! ### One step -/

/-- What is read from a node depends on what is read from a part of it through a frame. -/
def Plugs (outer inner : Role) (node child : Json) (place : Place) (whole : outer.Syntax) : Prop :=
  ∃ (frame : Frame outer inner) (part : inner.Syntax), inner.read child = .ok part ∧ whole = frame.fill part ∧
    ∀ new part', new.isNull = false → inner.read new = .ok part' →
      outer.read (node.replace place new) = .ok (frame.fill part')

namespace Slot

variable {outer inner : Role} {node child : Json} {place : Place}

private theorem plugs_statement {whole : Statement} (slot : Slot .statement node place inner)
    (hchild : node.child? place = some child) (hread : readStatement node = .ok whole) :
    Plugs .statement inner node child place whole := by
  cases slot with
  | classClause hkind =>
    simp only [readStatement_class hkind, readClass, bind_eq_ok_iff, pure_eq_ok_iff] at hread
    obtain ⟨_, ⟨name, hname, heritage, hheritage, members, hmembers, rfl⟩, rfl⟩ := hread
    obtain ⟨before, part, after, hpart, rfl, hplug⟩ := plugs_readList hchild hheritage
    refine ⟨.classClause name before after members, part, hpart, rfl, fun new part' _ hnew => ?_⟩
    change readStatement _ = _
    rw [readStatement_class (hkind.replace (by simp)), readClass, readName_replace (by simp) (by simp), hname,
      hplug new part' hnew, readList_replace (by simp), hmembers]
    rfl
  | interfaceClause hkind =>
    simp only [readStatement_interface hkind, readClass, bind_eq_ok_iff, pure_eq_ok_iff] at hread
    obtain ⟨_, ⟨name, hname, heritage, hheritage, members, hmembers, rfl⟩, rfl⟩ := hread
    obtain ⟨before, part, after, hpart, rfl, hplug⟩ := plugs_readList hchild hheritage
    refine ⟨.interfaceClause name before after members, part, hpart, rfl, fun new part' _ hnew => ?_⟩
    change readStatement _ = _
    rw [readStatement_interface (hkind.replace (by simp)), readClass, readName_replace (by simp) (by simp), hname,
      hplug new part' hnew, readList_replace (by simp), hmembers]
    rfl
  | classMember hkind =>
    simp only [readStatement_class hkind, readClass, bind_eq_ok_iff, pure_eq_ok_iff] at hread
    obtain ⟨_, ⟨name, hname, heritage, hheritage, members, hmembers, rfl⟩, rfl⟩ := hread
    obtain ⟨before, part, after, hpart, rfl, hplug⟩ := plugs_readList hchild hmembers
    refine ⟨.classMember name heritage before after, part, hpart, rfl, fun new part' _ hnew => ?_⟩
    change readStatement _ = _
    rw [readStatement_class (hkind.replace (by simp)), readClass, readName_replace (by simp) (by simp), hname,
      readList_replace (by simp), hheritage, hplug new part' hnew]
    rfl
  | interfaceMember hkind =>
    simp only [readStatement_interface hkind, readClass, bind_eq_ok_iff, pure_eq_ok_iff] at hread
    obtain ⟨_, ⟨name, hname, heritage, hheritage, members, hmembers, rfl⟩, rfl⟩ := hread
    obtain ⟨before, part, after, hpart, rfl, hplug⟩ := plugs_readList hchild hmembers
    refine ⟨.interfaceMember name heritage before after, part, hpart, rfl, fun new part' _ hnew => ?_⟩
    change readStatement _ = _
    rw [readStatement_interface (hkind.replace (by simp)), readClass, readName_replace (by simp) (by simp), hname,
      readList_replace (by simp), hheritage, hplug new part' hnew]
    rfl
  | functionParam hkind =>
    simp only [readStatement_function hkind, bind_eq_ok_iff, pure_eq_ok_iff] at hread
    obtain ⟨name, hname, params, hparams, result, hresult, rfl⟩ := hread
    obtain ⟨before, part, after, hpart, rfl, hplug⟩ := plugs_readList hchild hparams
    refine ⟨.functionParam name before after result, part, hpart, rfl, fun new part' _ hnew => ?_⟩
    change readStatement _ = _
    rw [readStatement_function (hkind.replace (by simp)), readName_replace (by simp) (by simp), hname,
      hplug new part' hnew, readOptionalType_replace (by simp), hresult]
    rfl
  | functionResult hkind =>
    simp only [readStatement_function hkind, bind_eq_ok_iff, pure_eq_ok_iff] at hread
    obtain ⟨name, hname, params, hparams, result, hresult, rfl⟩ := hread
    obtain ⟨part, hpart, rfl, hplug⟩ := plugs_readOptionalType hchild hresult
    refine ⟨.functionResult name params, part, hpart, rfl, fun new part' hnull hnew => ?_⟩
    change readStatement _ = _
    rw [readStatement_function (hkind.replace (by simp)), readName_replace (by simp) (by simp), hname,
      readList_replace (by simp), hparams, hplug new part' hnull hnew]
    rfl
  | aliased hkind =>
    simp only [readStatement_alias hkind, bind_eq_ok_iff, pure_eq_ok_iff] at hread
    obtain ⟨name, hname, type, htype, rfl⟩ := hread
    obtain ⟨hpart, hplug⟩ := plugs_readIn hchild htype
    refine ⟨.aliased name, _, hpart, rfl, fun new part' hnull hnew => ?_⟩
    change readStatement _ = _
    rw [readStatement_alias (hkind.replace (by simp)), readName_replace (by simp) (by simp), hname,
      hplug new part' hnull hnew]
    rfl
  | declarations hkind =>
    simp only [readStatement_variables hkind, bind_eq_ok_iff, pure_eq_ok_iff] at hread
    obtain ⟨declared, hdeclared, rfl⟩ := hread
    obtain ⟨hpart, hplug⟩ := plugs_readIn hchild hdeclared
    refine ⟨.declarations, _, hpart, rfl, fun new part' hnull hnew => ?_⟩
    change readStatement _ = _
    rw [readStatement_variables (hkind.replace (by simp)), hplug new part' hnull hnew]
    rfl

private theorem plugs_member {whole : Member} (slot : Slot .member node place inner)
    (hchild : node.child? place = some child) (hread : readMember node = .ok whole) :
    Plugs .member inner node child place whole := by
  cases slot with
  | propertyType hkind =>
    simp only [readMember_property hkind, bind_eq_ok_iff, pure_eq_ok_iff] at hread
    obtain ⟨name, hname, type, htype, rfl⟩ := hread
    obtain ⟨part, hpart, rfl, hplug⟩ := plugs_readOptionalType hchild htype
    refine ⟨.propertyType name (hasToken node "questionToken") (hasModifier node "ReadonlyKeyword")
      (hasModifier node "StaticKeyword"), part, hpart, rfl, fun new part' hnull hnew => ?_⟩
    change readMember _ = _
    rw [readMember_property (hkind.replace (by simp)), readName_replace (by simp) (by simp), hname,
      hplug new part' hnull hnew,
      hasToken_replace (by simp), hasModifier_replace (by simp), hasModifier_replace (by simp)]
    rfl
  | methodParam hkind =>
    simp only [readMember_method hkind, bind_eq_ok_iff, pure_eq_ok_iff] at hread
    obtain ⟨name, hname, params, hparams, result, hresult, rfl⟩ := hread
    obtain ⟨before, part, after, hpart, rfl, hplug⟩ := plugs_readList hchild hparams
    refine ⟨.methodParam name before after result, part, hpart, rfl, fun new part' _ hnew => ?_⟩
    change readMember _ = _
    rw [readMember_method (hkind.replace (by simp)), readName_replace (by simp) (by simp), hname, hplug new part' hnew,
      readOptionalType_replace (by simp), hresult]
    rfl
  | methodResult hkind =>
    simp only [readMember_method hkind, bind_eq_ok_iff, pure_eq_ok_iff] at hread
    obtain ⟨name, hname, params, hparams, result, hresult, rfl⟩ := hread
    obtain ⟨part, hpart, rfl, hplug⟩ := plugs_readOptionalType hchild hresult
    refine ⟨.methodResult name params, part, hpart, rfl, fun new part' hnull hnew => ?_⟩
    change readMember _ = _
    rw [readMember_method (hkind.replace (by simp)), readName_replace (by simp) (by simp), hname,
      readList_replace (by simp), hparams, hplug new part' hnull hnew]
    rfl
  | constructorParam hkind =>
    simp only [readMember_constructor hkind, bind_eq_ok_iff, pure_eq_ok_iff] at hread
    obtain ⟨params, hparams, rfl⟩ := hread
    obtain ⟨before, part, after, hpart, rfl, hplug⟩ := plugs_readList hchild hparams
    refine ⟨.constructorParam before after, part, hpart, rfl, fun new part' _ hnew => ?_⟩
    change readMember _ = _
    rw [readMember_constructor (hkind.replace (by simp)), hplug new part' hnew]
    rfl

private theorem plugs_type {whole : TypeExpr} (slot : Slot .type node place inner)
    (hchild : node.child? place = some child) (hread : readType node = .ok whole) :
    Plugs .type inner node child place whole := by
  cases slot with
  | parenthesized hkind =>
    simp only [readType_parenthesized hkind, bind_eq_ok_iff, pure_eq_ok_iff] at hread
    obtain ⟨type, htype, rfl⟩ := hread
    obtain ⟨hpart, hplug⟩ := plugs_readIn hchild htype
    refine ⟨.parenthesized, _, hpart, rfl, fun new part' hnull hnew => ?_⟩
    change readType _ = _
    rw [readType_parenthesized (hkind.replace (by simp)), hplug new part' hnull hnew]
    rfl
  | taken hkind =>
    simp only [readType_function hkind, bind_eq_ok_iff, pure_eq_ok_iff] at hread
    obtain ⟨params, hparams, result, hresult, rfl⟩ := hread
    obtain ⟨before, part, after, hpart, rfl, hplug⟩ := plugs_readList hchild hparams
    refine ⟨.taken before after result, part, hpart, rfl, fun new part' _ hnew => ?_⟩
    change readType _ = _
    rw [readType_function (hkind.replace (by simp)), hplug new part' hnew, readOptionalType_replace (by simp), hresult]
    rfl
  | given hkind =>
    simp only [readType_function hkind, bind_eq_ok_iff, pure_eq_ok_iff] at hread
    obtain ⟨params, hparams, result, hresult, rfl⟩ := hread
    obtain ⟨part, hpart, rfl, hplug⟩ := plugs_readOptionalType hchild hresult
    refine ⟨.given params, part, hpart, rfl, fun new part' hnull hnew => ?_⟩
    change readType _ = _
    rw [readType_function (hkind.replace (by simp)), readList_replace (by simp), hparams, hplug new part' hnull hnew]
    rfl
  | unionItem hkind =>
    simp only [readType_union hkind, bind_eq_ok_iff, pure_eq_ok_iff] at hread
    obtain ⟨parts, hparts, rfl⟩ := hread
    obtain ⟨before, part, after, hpart, rfl, hplug⟩ := plugs_readList hchild hparts
    refine ⟨.unionItem before after, part, hpart, rfl, fun new part' _ hnew => ?_⟩
    change readType _ = _
    rw [readType_union (hkind.replace (by simp)), hplug new part' hnew]
    rfl
  | intersectionItem hkind =>
    simp only [readType_intersection hkind, bind_eq_ok_iff, pure_eq_ok_iff] at hread
    obtain ⟨parts, hparts, rfl⟩ := hread
    obtain ⟨before, part, after, hpart, rfl, hplug⟩ := plugs_readList hchild hparts
    refine ⟨.intersectionItem before after, part, hpart, rfl, fun new part' _ hnew => ?_⟩
    change readType _ = _
    rw [readType_intersection (hkind.replace (by simp)), hplug new part' hnew]
    rfl
  | element hkind =>
    simp only [readType_array hkind, bind_eq_ok_iff, pure_eq_ok_iff] at hread
    obtain ⟨type, htype, rfl⟩ := hread
    obtain ⟨hpart, hplug⟩ := plugs_readIn hchild htype
    refine ⟨.element, _, hpart, rfl, fun new part' hnull hnew => ?_⟩
    change readType _ = _
    rw [readType_array (hkind.replace (by simp)), hplug new part' hnull hnew]
    rfl
  | tupleItem hkind =>
    simp only [readType_tuple hkind, bind_eq_ok_iff, pure_eq_ok_iff] at hread
    obtain ⟨parts, hparts, rfl⟩ := hread
    obtain ⟨before, part, after, hpart, rfl, hplug⟩ := plugs_readList hchild hparts
    refine ⟨.tupleItem before after, part, hpart, rfl, fun new part' _ hnew => ?_⟩
    change readType _ = _
    rw [readType_tuple (hkind.replace (by simp)), hplug new part' hnew]
    rfl
  | unwrapped hkind =>
    rw [readType_wrapper hkind] at hread
    obtain ⟨hpart, hplug⟩ := plugs_readIn hchild hread
    refine ⟨.unwrapped, _, hpart, rfl, fun new part' hnull hnew => ?_⟩
    change readType _ = _
    rw [readType_wrapper (hkind.replace (by simp)), hplug new part' hnull hnew]
    rfl
  | member hkind =>
    simp only [readType_members hkind, bind_eq_ok_iff, pure_eq_ok_iff] at hread
    obtain ⟨parts, hparts, rfl⟩ := hread
    obtain ⟨before, part, after, hpart, rfl, hplug⟩ := plugs_readList hchild hparts
    refine ⟨.member before after, part, hpart, rfl, fun new part' _ hnew => ?_⟩
    change readType _ = _
    rw [readType_members (hkind.replace (by simp)), hplug new part' hnew]
    rfl
  | argument hkind =>
    simp only [readType_reference hkind, bind_eq_ok_iff, pure_eq_ok_iff] at hread
    obtain ⟨name, hname, parts, hparts, rfl⟩ := hread
    obtain ⟨before, part, after, hpart, rfl, hplug⟩ := plugs_readList hchild hparts
    refine ⟨.argument name before after, part, hpart, rfl, fun new part' _ hnew => ?_⟩
    change readType _ = _
    rw [readType_reference (hkind.replace (by simp)), readIn_replace (by simp) (by simp), hname, hplug new part' hnew]
    rfl
  | extendedArgument hkind =>
    simp only [readType_extended hkind, bind_eq_ok_iff, pure_eq_ok_iff] at hread
    obtain ⟨name, hname, parts, hparts, rfl⟩ := hread
    obtain ⟨before, part, after, hpart, rfl, hplug⟩ := plugs_readList hchild hparts
    refine ⟨.argument name before after, part, hpart, rfl, fun new part' _ hnew => ?_⟩
    change readType _ = _
    rw [readType_extended (hkind.replace (by simp)), readIn_replace (by simp) (by simp), hname, hplug new part' hnew]
    rfl
  | operand hkind =>
    simp only [readType_operator hkind, bind_eq_ok_iff, pure_eq_ok_iff] at hread
    obtain ⟨type, htype, rfl⟩ := hread
    obtain ⟨hpart, hplug⟩ := plugs_readIn hchild htype
    refine ⟨.operand (operatorOf node), _, hpart, rfl, fun new part' hnull hnew => ?_⟩
    change readType _ = _
    rw [readType_operator (hkind.replace (by simp)), operatorOf_replace (by simp), hplug new part' hnull hnew]
    rfl

/-- The step. -/
theorem plugs {whole : outer.Syntax} (slot : Slot outer node place inner) (hchild : node.child? place = some child)
    (hread : outer.read node = .ok whole) : Plugs outer inner node child place whole := by
  cases outer with
  | statement => exact plugs_statement slot hchild hread
  | member => exact plugs_member slot hchild hread
  | type => exact plugs_type slot hchild hread
  | file =>
    cases slot
    obtain ⟨kind, hkind, hlist⟩ := bind_eq_ok_iff.mp hread
    split at hlist
    · next hfile =>
      obtain ⟨before, part, after, hpart, rfl, hplug⟩ := plugs_readList hchild hlist
      refine ⟨.statement before after, part, hpart, rfl, fun new part' _ hnew => ?_⟩
      change readSource _ = _
      rw [readSource, kindOf_replace (by simp), hkind, ok_bind, if_pos hfile, hplug new part' hnew]
      rfl
    · cases hlist
  | clause =>
    cases slot
    obtain ⟨before, part, after, hpart, rfl, hplug⟩ := plugs_readList hchild hread
    exact ⟨.base before after, part, hpart, rfl, fun new part' _ hnew => hplug new part' hnew⟩
  | base =>
    cases slot
    simp only [Role.read, readBase_eq, bind_eq_ok_iff, pure_eq_ok_iff] at hread
    obtain ⟨name, hname, parts, hparts, rfl⟩ := hread
    obtain ⟨before, part, after, hpart, rfl, hplug⟩ := plugs_readList hchild hparts
    refine ⟨.baseArgument name before after, part, hpart, rfl, fun new part' _ hnew => ?_⟩
    change readBase _ = _
    rw [readBase_eq, readIn_replace (by simp) (by simp), hname, hplug new part' hnew]
    rfl
  | declarations =>
    cases slot
    obtain ⟨before, part, after, hpart, rfl, hplug⟩ := plugs_readList hchild hread
    exact ⟨.declared before after, part, hpart, rfl, fun new part' _ hnew => hplug new part' hnew⟩
  | declared =>
    cases slot
    simp only [Role.read, readVariable, bind_eq_ok_iff, pure_eq_ok_iff] at hread
    obtain ⟨name, hname, type, htype, rfl⟩ := hread
    obtain ⟨part, hpart, rfl, hplug⟩ := plugs_readOptionalType hchild htype
    refine ⟨.declaredType name, part, hpart, rfl, fun new part' hnull hnew => ?_⟩
    change readVariable _ = _
    rw [readVariable, readName_replace (by simp) (by simp), hname, hplug new part' hnull hnew]
    rfl
  | param =>
    cases slot
    simp only [Role.read, readParam, bind_eq_ok_iff, pure_eq_ok_iff] at hread
    obtain ⟨name, hname, type, htype, rfl⟩ := hread
    obtain ⟨part, hpart, rfl, hplug⟩ := plugs_readOptionalType hchild htype
    refine ⟨.paramType name (hasToken node "questionToken") (hasToken node "dotDotDotToken"), part, hpart, rfl,
      fun new part' hnull hnew => ?_⟩
    change readParam _ = _
    rw [readParam, readName_replace (by simp) (by simp), hname, hplug new part' hnull hnew,
      hasToken_replace (by simp), hasToken_replace (by simp)]
    rfl

end Slot

/-! ### Paths -/

section

variable {outer inner : Role} {node target : Json} {path : List Place}

/-- What has a value at a path is no null, and stays none when a value that is no null is put there. -/
private theorem Position.isNull_replaceAt {new : Json} (position : Position outer node path inner target)
    (hnew : new.isNull = false) : (node.replaceAt path new).isNull = false := by
  cases position with
  | here => exact hnew
  | within _ hchild _ =>
    rw [replaceAt, hchild]
    exact isNull_replace hchild

/-- What is read from a node depends on what is read at the end of a path through a context. -/
theorem Position.plugs {whole : outer.Syntax} (position : Position outer node path inner target)
    (hread : outer.read node = .ok whole) :
    ∃ (context : Context outer inner) (part : inner.Syntax), inner.read target = .ok part ∧ whole = context.fill part ∧
      ∀ new part', new.isNull = false → inner.read new = .ok part' →
        outer.read (node.replaceAt path new) = .ok (context.fill part') := by
  induction position with
  | here => exact ⟨.hole, whole, hread, rfl, fun new part' _ hnew => hnew⟩
  | within slot hchild position ih =>
    obtain ⟨frame, middle, hmiddle, rfl, hframe⟩ := slot.plugs hchild hread
    obtain ⟨context, part, hpart, rfl, hcontext⟩ := ih hmiddle
    refine ⟨.within frame context, part, hpart, rfl, fun new part' hnull hnew => ?_⟩
    rw [replaceAt, hchild]
    exact hframe _ _ (position.isNull_replaceAt hnull) (hcontext new part' hnull hnew)

end

private theorem isNull_of_kindOf {node : Json} {kind : String} (h : kindOf node = .ok kind) : node.isNull = false := by
  cases node with
  | null => cases h
  | _ => rfl

/-- Where a statement, a member or a type is read, any node of a kind that is unknown there can stand in its place.  It
is kept as unsupported, and all around it is read as before. -/
theorem readSource_replaceAt {root node : Json} {file : List Statement} {path : List Place} {reader : Tolerant}
    (hread : readSource root = .ok file) (position : Position .file root path reader.role node) :
    ∃ (context : Context .file reader.role) (part : reader.role.Syntax),
      reader.role.read node = .ok part ∧ file = context.fill part ∧
        ∀ (new : Json) (kind : String), kindOf new = .ok kind → kind ∉ reader.kinds →
          readSource (root.replaceAt path new) = .ok (context.fill (reader.unsupported kind)) := by
  have hfile : Role.read .file root = .ok file := hread
  obtain ⟨context, part, hpart, rfl, hplug⟩ := position.plugs hfile
  refine ⟨context, part, hpart, rfl, fun new kind hkind hunknown => ?_⟩
  exact hplug new _ (isNull_of_kindOf hkind) (reader.read_unsupported hkind hunknown)

private def word (kind : String) : Json := .object [("kind", .text kind)]

private def namedText : Json := .object [("kind", .text "NamedTupleMember"), ("type", word "StringKeyword")]

private def tupleType : Json :=
  .object [("kind", .text "TupleType"), ("elements", .array [namedText, word "NumberKeyword"])]

private def aliasOf (type : Json) : Json :=
  .object [("kind", .text "TypeAliasDeclaration"),
    ("name", .object [("kind", .text "Identifier"), ("text", .text "T")]), ("type", type)]

/-- A file that declares `T` as a tuple of a text with a name and a number. -/
def namedTuple : Json := .object [("kind", .text "SourceFile"), ("statements", .array [aliasOf tupleType])]

/-- The way to the text, through its name. -/
def namedTuplePath : List Place := [.item "statements" 0, .field "type", .item "elements" 0, .field "type"]

private theorem readType_string : readType (word "StringKeyword") = .ok (.keyword .string) := by
  rw [readType]
  rfl

private theorem readSource_namedTuple :
    readSource namedTuple = .ok [.typeAlias (.ident "T") (.tuple [.keyword .string, .keyword .number])] := by
  have hnumber : readType (word "NumberKeyword") = .ok (.keyword .number) := by
    rw [readType]
    rfl
  have hnamed : readType namedText = .ok (.keyword .string) := by
    rw [readType_wrapper ⟨_, .head _, rfl⟩]
    exact readType_string
  have helements : readList tupleType "elements" readType = .ok [.keyword .string, .keyword .number] := by
    change [namedText, word "NumberKeyword"].mapM readType = _
    rw [List.mapM_cons, hnamed, List.mapM_cons, hnumber]
    rfl
  have htuple : readType tupleType = .ok (.tuple [.keyword .string, .keyword .number]) := by
    rw [readType_tuple ⟨_, .head _, rfl⟩, helements]
    rfl
  change [aliasOf tupleType].mapM readStatement = _
  rw [List.mapM_cons, readStatement_alias ⟨_, .head _, rfl⟩]
  change ((readType tupleType >>= fun type => pure (Statement.typeAlias (.ident "T") type)) >>= _) = _
  rw [htuple]
  rfl

/-- An import takes the place of the text. -/
theorem readSource_replaceAt_namedTuple :
    readSource namedTuple = .ok [.typeAlias (.ident "T") (.tuple [.keyword .string, .keyword .number])] ∧
      ∃ context : Context .file .type,
        context.fill (.keyword .string) = [.typeAlias (.ident "T") (.tuple [.keyword .string, .keyword .number])] ∧
        readSource (namedTuple.replaceAt namedTuplePath (word "ImportType")) =
          .ok (context.fill (.unsupported "ImportType")) := by
  have hposition : Position .file namedTuple namedTuplePath (Tolerant.role .type) (word "StringKeyword") :=
    .within .statement rfl (.within (.aliased ⟨_, .head _, rfl⟩) rfl
      (.within (.tupleItem ⟨_, .head _, rfl⟩) rfl (.within (.unwrapped ⟨_, .head _, rfl⟩) rfl .here)))
  obtain ⟨context, part, hpart, hfile, hreplaced⟩ := readSource_replaceAt readSource_namedTuple hposition
  obtain rfl : TypeExpr.keyword .string = part := Except.ok.inj (readType_string.symm.trans hpart)
  exact ⟨readSource_namedTuple, context, hfile.symm, hreplaced (word "ImportType") "ImportType" rfl (by decide)⟩

end StubGen.DeclFile
