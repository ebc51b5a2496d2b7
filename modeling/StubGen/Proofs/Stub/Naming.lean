import Mathlib.Data.List.Nodup
import StubGen.Proofs.Stub.Written

/-!
# Names of types that have none

The types that are defined on the way are numbered without gaps, and their blocks stand in the order of dependency
(`synthesized_in_order`).  A text uses a name if it is not the same with another name in its place, so the proof runs
the generator with two namings side by side.

* `Blocks.Alike` and `Stubs.Alike` compare two runs as far as the namings agree.
* `Stubs.Numbers` is the invariant of the numbers.
-/

namespace StubGen.DeclFile

/-- The numbers of blocks, in their order. -/
def numbers (blocks : List Block) : List Nat := blocks.map Block.number

/-- The blocks of two runs with different namings: the same numbers, and the same members where the namings agree on
the blocks before.  Nothing is said of members unless `given` holds. -/
inductive BlocksAlike (agree : Nat → Prop) : Prop → List Block → List Block → Prop
  | nil {given : Prop} : BlocksAlike agree given [] []
  | cons {given : Prop} {block other : Block} {rest others : List Block} : other.number = block.number →
      (given → other.decl.members = block.decl.members) → BlocksAlike agree (given ∧ agree block.number) rest others →
      BlocksAlike agree given (block :: rest) (other :: others)

namespace BlocksAlike

variable {agree : Nat → Prop} {given : Prop} {blocks others : List Block}

theorem numbers_eq (h : BlocksAlike agree given blocks others) : numbers others = numbers blocks := by
  induction h with
  | nil => rfl
  | cons hnumber _ _ ih => simp only [numbers, List.map_cons, hnumber] at ih ⊢; rw [ih]

theorem length_eq (h : BlocksAlike agree given blocks others) : others.length = blocks.length := by
  simpa [numbers] using congrArg List.length h.numbers_eq

theorem weaken {less : Prop} (h : BlocksAlike agree given blocks others) (hless : less → given) :
    BlocksAlike agree less blocks others := by
  induction h generalizing less with
  | nil => exact .nil
  | cons hnumber hmembers _ ih => exact .cons hnumber (fun h => hmembers (hless h)) (ih fun h => ⟨hless h.1, h.2⟩)

theorem append {more moreOthers : List Block} (h : BlocksAlike agree given blocks others)
    (h' : BlocksAlike agree (given ∧ ∀ number ∈ numbers blocks, agree number) more moreOthers) :
    BlocksAlike agree given (blocks ++ more) (others ++ moreOthers) := by
  induction h with
  | nil => exact h'.weaken fun h => ⟨h, by simp [numbers]⟩
  | cons hnumber hmembers _ ih =>
    refine .cons hnumber hmembers (ih (h'.weaken fun h => ⟨h.1.1, ?_⟩))
    exact List.forall_mem_cons.mpr ⟨h.1.2, h.2⟩

/-- The members of a block are the same if the namings agree on the blocks before it. -/
theorem members_eq (h : BlocksAlike agree given blocks others) (hgiven : given) (i : Nat)
    (hagree : ∀ number ∈ (numbers blocks).take i, agree number) :
    others[i]?.map (·.decl.members) = blocks[i]?.map (·.decl.members) := by
  induction h generalizing i with
  | nil => rfl
  | cons hnumber hmembers _ ih =>
    cases i with
    | zero => simp [hmembers hgiven]
    | succ i =>
      obtain ⟨hfirst, hrest⟩ := List.forall_mem_cons.mp hagree
      exact ih ⟨hgiven, hfirst⟩ i hrest

end BlocksAlike

/-- Two pieces define blocks alike, and their values are the same if the namings agree on these. -/
def Stubs.Alike {α : Type} (agree : Nat → Prop) (given : Prop) (piece other : Stubs α) : Prop :=
  ∀ count, BlocksAlike agree given (piece count).1.blocks (other count).1.blocks ∧
    (given → (∀ number ∈ numbers (piece count).1.blocks, agree number) → (other count).2 = (piece count).2)

namespace Stubs.Alike

variable {α β : Type} {agree : Nat → Prop} {given : Prop}

protected theorem pure {value other : α} (h : given → other = value) :
    (pure value : Stubs α).Alike agree given (pure other) :=
  fun _ => ⟨.nil, fun hgiven _ => h hgiven⟩

protected theorem bind {first firstOther : Stubs α} {next nextOther : α → Stubs β}
    (hfirst : first.Alike agree given firstOther)
    (hnext : ∀ value other, (next value).Alike agree (given ∧ other = value) (nextOther other)) :
    (first >>= next).Alike agree given (firstOther >>= nextOther) := by
  intro count
  obtain ⟨hblocks, hvalue⟩ := hfirst count
  obtain ⟨hmore, hresult⟩ := hnext (first count).2 (firstOther count).2 (count + (first count).1.blocks.length)
  rw [bind_apply, bind_apply, hblocks.length_eq]
  refine ⟨hblocks.append (hmore.weaken fun h => ⟨h.1, hvalue h.1 h.2⟩), fun hgiven hagree => ?_⟩
  simp only [Log.blocks_append, numbers, List.map_append, List.forall_mem_append] at hagree
  exact hresult ⟨hgiven, hvalue hgiven hagree.1⟩ hagree.2

/-- Pieces without types of their own are alike if they are made from the same. -/
protected theorem leaf {piece : α → Stubs β} {Yields : β → Prop}
    (hpiece : ∀ value, (piece value).Ensures (fun _ => False) Yields) {value other : α} (h : given → other = value) :
    (piece value).Alike agree given (piece other) := by
  intro count
  have hnone : ∀ value, (piece value count).1.blocks = [] := fun value =>
    List.eq_nil_iff_forall_not_mem.mpr (hpiece value count).1
  rw [hnone, hnone]
  exact ⟨.nil, fun hgiven _ => by rw [h hgiven]⟩

/-- A piece without types of its own is alike itself. -/
protected theorem refl {piece : Stubs α} {Yields : α → Prop} (hpiece : piece.Ensures (fun _ => False) Yields) :
    piece.Alike agree given piece := by
  intro count
  have hnone : (piece count).1.blocks = [] := List.eq_nil_iff_forall_not_mem.mpr (hpiece count).1
  rw [hnone]
  exact ⟨.nil, fun _ _ => rfl⟩

protected theorem map {first other : Stubs α} {f g : α → β} (h : first.Alike agree given other)
    (hf : ∀ value other, given ∧ other = value → g other = f value) :
    (do return f (← first) : Stubs β).Alike agree given (do return g (← other)) :=
  h.bind fun value other => .pure (hf value other)

protected theorem mapM {f g : α → Stubs β} {items : List α}
    (h : ∀ item ∈ items, ∀ given, (f item).Alike agree given (g item)) :
    (items.mapM f).Alike agree given (items.mapM g) := by
  induction items generalizing given with
  | nil => exact .pure fun _ => rfl
  | cons item rest ih =>
    obtain ⟨hitem, hrest⟩ := List.forall_mem_cons.mp h
    rw [List.mapM_cons, List.mapM_cons]
    refine (hitem given).bind fun first firstOther => (ih hrest).bind fun others othersOther => .pure ?_
    rintro ⟨⟨-, rfl⟩, rfl⟩
    rfl

end Stubs.Alike

section Naming

variable {style : Style} {typeName : Nat → String} {agree : Nat → Prop}

/-- The code of the class that a type without a name becomes, with its entries. -/
def typeCode (name : String) (entries : List Entry) (isEmpty : Bool) : ClassCode :=
  ⟨[], "class " ++ name ++ "(Protocol):", entries ++ if isEmpty then [.plain [.line "..."]] else []⟩

/-- A type without a name stands for itself by the next name.  Its own block comes after those of its members. -/
theorem typeText_members (style : Style) (members : List Member) (count : Nat) :
    let entries := memberEntries style false members (count + 1)
    let run := typeText style (.members members) count
    run.1.blocks = entries.1.blocks ++
        [⟨count + 1, typeCode (style.typeName (count + 1)) entries.2 (!members.any Member.isEmitted)⟩] ∧
      run.2 = style.typeName (count + 1) := by
  intro entries run
  refine ⟨?_, rfl⟩
  have hdispatch : ∀ entries count, (useDispatch "singledispatchmethod" entries count).1.blocks = [] := by
    intro entries count
    unfold useDispatch
    split <;> rfl
  have hheader : "class " ++ style.typeName (count + 1) ++ "(" ++ "Protocol" ++ "):" =
      "class " ++ style.typeName (count + 1) ++ "(Protocol):" := by
    simp only [String.append_assoc]
    rfl
  have hrun : run.1.blocks = entries.1.blocks ++ ((useDispatch "singledispatchmethod"
      (entries.2 ++ if !members.any Member.isEmitted then [.plain [.line "..."]] else [])
      (count + 1 + entries.1.blocks.length)).1.blocks ++ []) ++ [⟨count + 1,
        ⟨[], "class " ++ style.typeName (count + 1) ++ "(" ++ "Protocol" ++ "):",
          entries.2 ++ if !members.any Member.isEmitted then [.plain [.line "..."]] else []⟩⟩] := rfl
  rw [hrun, hdispatch, List.nil_append, List.append_nil, hheader]
  rfl

/-- The style with other names for types that have none. -/
def Style.withNames (style : Style) (typeName : Nat → String) : Style := { style with typeName := typeName }

theorem useRuntime_withNames (style : Style) (typeName : Nat → String) (symbol : String) :
    useRuntime (style.withNames typeName) symbol = useRuntime style symbol := rfl

theorem aliasLines_withNames (style : Style) (typeName : Nat → String) (recased : Recased) :
    aliasLines (style.withNames typeName) recased = aliasLines style recased := rfl

theorem annotated_withNames (style : Style) (typeName : Nat → String) (recased : Recased) (type : String) :
    annotated (style.withNames typeName) recased type = annotated style recased type := rfl

theorem propertyCode_withNames (style : Style) (typeName : Nat → String) (recased : Recased) (readonly static : Bool)
    (type : String) : propertyCode (style.withNames typeName) recased readonly static type =
      propertyCode style recased readonly static type := rfl

theorem alike_referenceText (style : Style) {given : Prop} (name : String) {arguments other : Stubs (List String)}
    (h : ∀ given : Prop, arguments.Alike agree given other) :
    (referenceText name arguments).Alike agree given (referenceText name other) := by
  have hleaf := closed_ensures style fun _ => False
  refine (Stubs.Alike.refl (hleaf.referenceHead name)).bind fun _ _ => (h _).map fun _ _ => ?_
  rintro ⟨⟨-, rfl⟩, rfl⟩
  rfl

theorem alike_members (h : ∀ number, agree number → typeName number = style.typeName number) {given : Prop}
    (members : List Member) (hmembers : (memberEntries style false members).Alike agree given
      (memberEntries (style.withNames typeName) false members)) :
    (typeText style (.members members)).Alike agree given (typeText (style.withNames typeName) (.members members)) := by
  intro count
  obtain ⟨hblocks, hentries⟩ := hmembers (count + 1)
  obtain ⟨hrun, hname⟩ := typeText_members style members count
  obtain ⟨hrunOther, hnameOther⟩ := typeText_members (style.withNames typeName) members count
  rw [hrun, hrunOther, hname, hnameOther]
  constructor
  · refine hblocks.append (.cons rfl (fun hgiven => ?_) .nil)
    rw [typeCode, typeCode, hentries hgiven.1 hgiven.2]
  · intro _ hagree
    exact h _ (hagree _ (by simp [numbers]))

mutual

theorem alike_typeText (h : ∀ number, agree number → typeName number = style.typeName number) {given : Prop}
    (type : TypeExpr) : (typeText style type).Alike agree given (typeText (style.withNames typeName) type) := by
  have hleaf := closed_ensures style fun _ => False
  match type with
  | .keyword keyword => exact .refl (hleaf.hostText (source_of_mem_knownHosts (hostType_mem_knownHosts keyword)))
  | .parenthesized inner => exact alike_typeText h inner
  | .function params result =>
    refine (alike_optionalTypeText h result).bind fun _ _ => (Stubs.Alike.refl (hleaf.typing _)).bind fun _ _ => ?_
    split
    · refine .pure ?_
      rintro ⟨⟨-, rfl⟩, rfl⟩
      rfl
    · refine (alike_paramTypes h params).map fun _ _ => ?_
      rintro ⟨⟨⟨-, rfl⟩, rfl⟩, rfl⟩
      rfl
  | .union items => exact (alike_typeTexts h items).map fun _ _ ⟨_, heq⟩ => by rw [heq]
  | .intersection [] => exact .refl (hleaf.typing _)
  | .intersection (first :: _) => exact alike_typeText h first
  | .array element =>
    refine (alike_typeText h element).bind fun _ _ => (Stubs.Alike.refl (hleaf.typing _)).map fun _ _ => ?_
    rintro ⟨⟨-, rfl⟩, rfl⟩
    rfl
  | .tuple items =>
    refine (Stubs.Alike.refl (hleaf.typing _)).bind fun _ _ => ?_
    split
    · exact .pure fun ⟨_, heq⟩ => by rw [heq]
    · refine (alike_typeTexts h items).map fun _ _ => ?_
      rintro ⟨⟨-, rfl⟩, rfl⟩
      rfl
  | .literal value => exact .refl (hleaf.literalText value)
  | .query name => exact .refl (hleaf.map (hleaf.typing _) _)
  | .members members => exact alike_members h members (alike_memberEntries h false members)
  | .reference name arguments => exact alike_referenceText style name fun _ => alike_typeTexts h arguments
  | .operator operator operand =>
    rw [typeText, typeText]
    split
    · exact .pure fun _ => rfl
    · exact alike_typeText h operand
  | .indexedAccess => exact .refl (hleaf.bind (hleaf.report _ _) fun _ => hleaf.typing _)
  | .unsupported kind => exact .refl (hleaf.bind (hleaf.report _ _) fun _ => hleaf.typing _)

theorem alike_typeTexts (h : ∀ number, agree number → typeName number = style.typeName number) {given : Prop}
    (types : List TypeExpr) :
    (typeTexts style types).Alike agree given (typeTexts (style.withNames typeName) types) := by
  match types with
  | [] => exact .pure fun _ => rfl
  | type :: rest =>
    refine (alike_typeText h type).bind fun _ _ => (alike_typeTexts h rest).map fun _ _ => ?_
    rintro ⟨⟨-, rfl⟩, rfl⟩
    rfl

theorem alike_optionalTypeText (h : ∀ number, agree number → typeName number = style.typeName number) {given : Prop}
    (type : Option TypeExpr) : (optionalTypeText style type).Alike agree given
      (optionalTypeText (style.withNames typeName) type) := by
  match type with
  | some type => exact alike_typeText h type
  | none => exact .refl ((closed_ensures style fun _ => False).typing _)

theorem alike_paramTypes (h : ∀ number, agree number → typeName number = style.typeName number) {given : Prop}
    (params : List Param) : (paramTypes style params).Alike agree given
      (paramTypes (style.withNames typeName) params) := by
  match params with
  | [] => exact .pure fun _ => rfl
  | .mk _ type optional _ :: rest =>
    refine (alike_optionalTypeText h type).bind fun _ _ =>
      (Stubs.Alike.leaf ((closed_ensures style fun _ => False).optionalText optional) fun heq => heq.2).bind fun _ _ =>
        (alike_paramTypes h rest).map fun _ _ => ?_
    rintro ⟨⟨⟨-, -⟩, rfl⟩, rfl⟩
    rfl

theorem alike_paramText (h : ∀ number, agree number → typeName number = style.typeName number) {given : Prop}
    (position : Nat) (param : Param) : (paramText style position param).Alike agree given
      (paramText (style.withNames typeName) position param) := by
  have hleaf := closed_ensures style fun _ => False
  match param with
  | .mk name type optional rest =>
    rw [paramText, paramText]
    split
    · exact .pure fun _ => rfl
    · split
      · split
        · rename_i element
          exact (alike_typeText h element).map fun _ _ ⟨_, heq⟩ => by rw [heq]
        · exact (alike_optionalTypeText h type).map fun _ _ ⟨_, heq⟩ => by rw [heq]
      · split
        · exact (alike_typeText h _).bind fun _ _ =>
            (Stubs.Alike.leaf (hleaf.typedParam _ optional) fun heq => heq.2).map fun _ _ ⟨_, heq⟩ => by rw [heq]
        · exact .refl (hleaf.map (hleaf.untypedParam _ optional) _)

theorem alike_paramTexts (h : ∀ number, agree number → typeName number = style.typeName number) {given : Prop}
    (position : Nat) (params : List Param) : (paramTexts style position params).Alike agree given
      (paramTexts (style.withNames typeName) position params) := by
  match params with
  | [] => exact .pure fun _ => rfl
  | param :: others =>
    refine (alike_paramText h position param).bind fun _ _ =>
      (alike_paramTexts h (position + 1) others).map fun _ _ => ?_
    rintro ⟨⟨-, rfl⟩, rfl⟩
    rfl

theorem alike_resultText (h : ∀ number, agree number → typeName number = style.typeName number) {given : Prop}
    (type : Option TypeExpr) : (resultText style type).Alike agree given
      (resultText (style.withNames typeName) type) := by
  have hleaf := closed_ensures style fun _ => False
  match type with
  | some (.reference name []) =>
    rw [resultText, resultText]
    split
    · exact .refl (hleaf.map (hleaf.typing _) _)
    · exact .refl (hleaf.map (hleaf.referenceText name (hleaf.pure [])) _)
  | some (.reference name (inner :: others)) =>
    rw [resultText, resultText]
    split
    · exact (alike_typeText h inner).map fun _ _ ⟨_, heq⟩ => by rw [heq]
    · exact (alike_referenceText style name fun _ => alike_typeTexts h (inner :: others)).map
        fun _ _ ⟨_, heq⟩ => by rw [heq]
  | some (.keyword _) | some (.parenthesized _) | some (.function ..) | some (.union _) | some (.intersection _)
  | some (.array _) | some (.tuple _) | some (.literal _) | some (.query _) | some (.members _) | some (.operator ..)
  | some .indexedAccess | some (.unsupported _) => exact (alike_typeText h _).map fun _ _ ⟨_, heq⟩ => by rw [heq]
  | none => exact .refl (hleaf.map (hleaf.typing _) _)

theorem alike_memberEntry (h : ∀ number, agree number → typeName number = style.typeName number) {given : Prop}
    (separate : Bool) (member : Member) : (memberEntry style separate member).Alike agree given
      (memberEntry (style.withNames typeName) separate member) := by
  have hleaf := closed_ensures style fun _ => False
  match member with
  | .property (.other kind text) .. => exact .refl (hleaf.map (hleaf.reportName kind text) _)
  | .property (.ident name) type optional readonly static =>
    simp only [memberEntry, propertyCode_withNames]
    exact (alike_optionalTypeText h type).bind fun _ _ =>
      (Stubs.Alike.leaf (hleaf.optionalText optional) fun heq => heq.2).bind fun _ _ =>
        (Stubs.Alike.leaf (hleaf.propertyCode (.snake name) readonly static) fun heq => heq.2).map
          fun _ _ ⟨_, heq⟩ => by rw [heq]
  | .method (.other kind text) .. => exact .refl (hleaf.map (hleaf.reportName kind text) _)
  | .method (.ident name) params result =>
    simp only [memberEntry, aliasLines_withNames]
    refine (Stubs.Alike.refl (hleaf.aliasLines (.snake name))).bind fun _ _ =>
      (alike_paramTexts h 0 params).bind fun _ _ => (alike_resultText h result).map fun _ _ => ?_
    rintro ⟨⟨⟨-, rfl⟩, rfl⟩, rfl⟩
    rfl
  | .constructor params =>
    rw [memberEntry, memberEntry]
    exact (alike_paramTexts h 0 params).map fun _ _ ⟨_, heq⟩ => by rw [heq]
  | .unsupported kind => exact .refl (hleaf.bind (hleaf.report _ _) fun _ => hleaf.pure _)

theorem alike_memberEntries (h : ∀ number, agree number → typeName number = style.typeName number) {given : Prop}
    (separate : Bool) (members : List Member) : (memberEntries style separate members).Alike agree given
      (memberEntries (style.withNames typeName) separate members) := by
  match members with
  | [] => exact .pure fun _ => rfl
  | member :: rest =>
    refine (alike_memberEntry h separate member).bind fun _ _ => (alike_memberEntries h _ rest).map fun _ _ => ?_
    rintro ⟨⟨-, rfl⟩, rfl⟩
    rfl

end

private theorem alike_useDispatch {given : Prop} (dispatch : String) {entries other : List Entry}
    (h : given → other = entries) : (useDispatch dispatch entries).Alike agree given (useDispatch dispatch other) :=
  .leaf (fun entries => .useDispatch dispatch entries) h

theorem alike_writeClass (h : ∀ number, agree number → typeName number = style.typeName number) {given : Prop}
    (isInterface : Bool) (decl : ClassDecl) : (writeClass style isInterface decl).Alike agree given
      (writeClass (style.withNames typeName) isInterface decl) := by
  have hleaf := closed_ensures style fun _ => False
  obtain ⟨name, heritage, members⟩ := decl
  cases name with
  | other => exact .refl (hleaf.bind (hleaf.report _ _) fun _ => hleaf.pure _)
  | ident name =>
    have hbase : ∀ base ∈ heritage.flatten, ∀ given,
        (do return referenceName base.name ++ argumentsText (← typeTexts style base.arguments) : Stubs String).Alike
          agree given (do
            return referenceName base.name ++ argumentsText (← typeTexts (style.withNames typeName) base.arguments)) :=
      fun base _ _ => (alike_typeTexts h base.arguments).map fun _ _ ⟨_, heq⟩ => by rw [heq]
    simp only [writeClass, classCode, useRuntime_withNames, aliasLines_withNames, bind_assoc, pure_bind]
    refine (Stubs.Alike.refl (hleaf.useRuntime (by decide))).bind fun _ _ => ?_
    refine (Stubs.Alike.refl (hleaf.aliasLines (.pascal name))).bind fun _ _ => ?_
    refine (Stubs.Alike.mapM hbase).bind fun _ _ => ?_
    refine (Stubs.Alike.leaf (fun texts => hleaf.classHeader (Recased.pascal name).name texts isInterface)
      fun heq => heq.2).bind fun _ _ => ?_
    refine (alike_memberEntries h false members).bind fun _ _ => ?_
    refine (alike_useDispatch _ ?_).bind fun _ _ => .pure ?_
    · rintro ⟨-, rfl⟩
      rfl
    · rintro ⟨⟨⟨⟨⟨⟨-, -⟩, rfl⟩, -⟩, rfl⟩, rfl⟩, -⟩
      rfl

theorem alike_statementParts (h : ∀ number, agree number → typeName number = style.typeName number) {given : Prop}
    (statement : Statement) : (statementParts style statement).Alike agree given
      (statementParts (style.withNames typeName) statement) := by
  have hleaf := closed_ensures style fun _ => False
  cases statement with
  | classDecl decl => exact alike_writeClass h false decl
  | interface decl => exact alike_writeClass h true decl
  | function name params result =>
    cases name with
    | other => exact .refl (hleaf.bind (hleaf.report _ _) fun _ => hleaf.pure _)
    | ident name =>
      simp only [statementParts, writeFunction, aliasLines_withNames]
      refine (Stubs.Alike.refl (hleaf.aliasLines (.snake name))).bind fun _ _ =>
        (alike_paramTexts h 0 params).bind fun _ _ => (alike_resultText h result).map fun _ _ => ?_
      rintro ⟨⟨⟨-, rfl⟩, rfl⟩, rfl⟩
      rfl
  | typeAlias name type =>
    cases name with
    | other => exact .refl (hleaf.bind (hleaf.report _ _) fun _ => hleaf.pure _)
    | ident name => exact (alike_typeText h type).map fun _ _ heq => by rw [heq.2]
  | enum name members => exact .refl (hleaf.writeEnum name members)
  | variableDecls declared =>
    refine (Stubs.Alike.mapM fun item _ given => ?_).map fun _ _ heq => by rw [heq.2]
    obtain ⟨name, type⟩ := item
    cases name with
    | other => exact .refl (hleaf.bind (hleaf.report _ _) fun _ => hleaf.pure _)
    | ident name =>
      simp only [writeVariable, annotated_withNames]
      exact (alike_optionalTypeText h type).bind fun _ _ =>
        (Stubs.Alike.leaf (hleaf.annotated (.snake name)) fun heq => heq.2).map fun _ _ heq => by rw [heq.2]
  | module => exact .pure fun _ => rfl
  | unsupported kind => exact .refl (hleaf.bind (hleaf.report _ _) fun _ => hleaf.pure _)

/-- The generator does alike with two namings. -/
theorem alike_fileParts (h : ∀ number, agree number → typeName number = style.typeName number)
    (statements : List Statement) : (fileParts style statements).Alike agree True
      (fileParts (style.withNames typeName) statements) := by
  refine (Stubs.Alike.mapM fun statement _ given => alike_statementParts h statement).bind fun _ _ =>
    (alike_useDispatch _ ?_).bind fun _ _ => .pure ?_
  · rintro ⟨-, rfl⟩
    rfl
  · rintro ⟨⟨-, rfl⟩, -⟩
    rfl

end Naming

section Numbers

/-- The piece numbers the types that it defines without gaps. -/
def Stubs.Numbers {α : Type} (piece : Stubs α) : Prop :=
  ∀ count, (numbers (piece count).1.blocks).Perm (List.range' (count + 1) (piece count).1.blocks.length)

theorem hereditary_numbers (style : Style) : Hereditary style Stubs.Numbers where
  pure _ _ := .refl _
  bind hfirst hnext count := by
    rw [Stubs.bind_apply, Log.blocks_append, numbers, List.map_append, List.length_append, ← List.range'_append_1,
      Nat.add_right_comm]
    exact (hfirst count).append (hnext _ _)
  use _ _ _ := .refl _
  report _ _ _ := .refl _
  define members hmembers count := by
    rw [(typeText_members style members count).1, numbers, List.map_append, List.length_append, List.map_singleton,
      List.length_singleton, List.range'_succ]
    -- the type takes its number first and gets its block last
    exact ((hmembers (count + 1)).append_right _).trans (List.perm_append_comm)

end Numbers

/-- A text uses the name with a number if it is another one with another name in its place. -/
def UsesName {α : Type} (text : (Nat → String) → α) (number : Nat) : Prop :=
  ∃ name other : Nat → String, (∀ n, n ≠ number → other n = name n) ∧ text other ≠ text name

/-- The block is the definition of a type of this name, and has no decorators besides its first one. -/
def Block.IsNamed (name : String) (block : Block) : Prop :=
  block.decl.aliases = [] ∧ block.decl.header = "class " ++ name ++ "(Protocol):"

/-- Every block has the name with its number. -/
theorem hereditary_isNamed (style : Style) : Hereditary style fun piece =>
    piece.Ensures (fun block => block.IsNamed (style.typeName block.number)) fun _ => True := by
  refine ⟨closed_ensures style _, fun members hmembers count => ⟨?_, trivial⟩⟩
  rw [(typeText_members style members count).1]
  refine List.forall_mem_append.mpr ⟨(hmembers (count + 1)).1, ?_⟩
  exact List.forall_mem_singleton.mpr ⟨rfl, rfl⟩

section Order

variable {style : Style} {statements : List Statement}

/-- The numbers of the types of a file do not depend on their names. -/
private theorem numbers_withNames (style : Style) (typeName : Nat → String) (statements : List Statement) :
    numbers (fileParts (style.withNames typeName) statements 0).1.blocks =
      numbers (fileParts style statements 0).1.blocks := by
  have halike : (fileParts style statements).Alike (fun _ => False) True
      (fileParts (style.withNames typeName) statements) := alike_fileParts (fun _ h => h.elim) statements
  exact (halike 0).1.numbers_eq

/-- The members of a block use no names but those of blocks before it. -/
private theorem mem_of_usesName_members {i number : Nat} (h : UsesName (fun typeName =>
    (fileParts (style.withNames typeName) statements 0).1.blocks[i]?.map (·.decl.members)) number) :
    number ∈ (numbers (fileParts style statements 0).1.blocks).take i := by
  obtain ⟨name, other, hagree, hne⟩ := h
  by_contra hnotMem
  apply hne
  have halike : (fileParts (style.withNames name) statements).Alike (· ≠ number) True
      (fileParts (style.withNames other) statements) := alike_fileParts hagree statements
  rw [← numbers_withNames style name] at hnotMem
  exact (halike 0).1.members_eq trivial i fun n hn heq => hnotMem (heq ▸ hn)

/-- The body uses no names but those of blocks. -/
private theorem mem_of_usesName_parts {number : Nat}
    (h : UsesName (fun typeName => (fileParts (style.withNames typeName) statements 0).2) number) :
    number ∈ numbers (fileParts style statements 0).1.blocks := by
  obtain ⟨name, other, hagree, hne⟩ := h
  by_contra hnotMem
  apply hne
  have halike : (fileParts (style.withNames name) statements).Alike (· ≠ number) True
      (fileParts (style.withNames other) statements) := alike_fileParts hagree statements
  rw [← numbers_withNames style name] at hnotMem
  exact (halike 0).2 trivial fun n hn heq => hnotMem (heq ▸ hn)

/-- The types of a file that have no name are called by the stem and the numbers from 1 on, each is defined by one
block, and what its members use is defined before it.  The body, which comes last, uses none but them. -/
theorem synthesized_in_order (options : DeclOptions) (statements : List Statement) :
    let style := Style.ofOptions options
    let run := fun typeName => fileParts (style.withNames typeName) statements 0
    let log := (fileParts style statements 0).1
    let parts := (fileParts style statements 0).2
    let nameOf := fun number : Nat => options.typeStem ++ toString number
    (generate options statements).text = (Document.mk options.header (.ofUses log.uses)
        ((log.blocks.map fun block => Code.lines block.decl.code) ++ [Code.lines (bodyCode parts)])).render ∧
      (∀ block ∈ log.blocks, block.IsNamed (nameOf block.number)) ∧
      (log.blocks.map fun block => nameOf block.number).Perm ((List.range' 1 log.blocks.length).map nameOf) ∧
      (log.blocks.map fun block => nameOf block.number).Nodup ∧
      (∀ i number, UsesName (fun typeName => (run typeName).1.blocks[i]?.map (·.decl.members)) number →
        number ∈ (numbers log.blocks).take i) ∧
      ∀ number, UsesName (fun typeName => (run typeName).2) number → number ∈ numbers log.blocks := by
  intro style run log parts nameOf
  have hnumbers : (numbers log.blocks).Perm (List.range' 1 log.blocks.length) :=
    (hereditary_numbers style).fileParts (fun _ _ => .refl _) statements 0
  have hnames : (log.blocks.map fun block => nameOf block.number) = (numbers log.blocks).map nameOf := by
    rw [numbers, List.map_map]
    rfl
  have hinjective : Function.Injective nameOf := by
    intro a b h
    have hrepr : a.repr = b.repr := (String.append_right_inj options.typeStem).mp h
    have hvalue := congrArg (fun digits => Nat.ofDigitChars 10 digits.toList 0) hrepr
    simpa using hvalue
  refine ⟨congrArg Generated.text (generate_eq options statements), ?_, ?_, ?_,
    fun i number => mem_of_usesName_members, fun number => mem_of_usesName_parts⟩
  · exact ((hereditary_isNamed style).fileParts (fun _ => .use _) statements 0).1
  · rw [hnames]
    exact hnumbers.map nameOf
  · rw [hnames]
    exact List.Nodup.map hinjective (hnumbers.nodup_iff.mpr List.nodup_range')

end Order

end StubGen.DeclFile
