import StubGen.CUnit.Module
import StubGen.Proofs.Imports.Expressions
import StubGen.Proofs.Jump.Binding
import StubGen.Proofs.Loop.Test

/-!
# Host symbols in units

The host symbols in the code of a C unit are used, or they come from the names and constants of its nodes.

* `supplies_writeDecl` and its like follow the writers of declarations.
* `supplies_writeSwitch` and `supplies_writeFor` and their like follow those of statements with parts, and
  `everywhere_suppliesStmt` puts them together.
* `supplies_writeExternal` is about the items of a unit.
-/

namespace StubGen.CUnit

variable {options : UnitOptions} {context : Context} {runtimeModule : String} {Used : Import → Prop}

/-! ### Declarations -/

private theorem supplied_nextEnumerated {previous : Option Enumerated}
    (h : ∀ enumerated ∈ previous, Supplied runtimeModule Used enumerated.name) :
    Supplied runtimeModule Used (nextEnumerated previous).1 := by
  unfold nextEnumerated
  split
  · exact supplied_of_isPlain (by decide)
  · next enumerated =>
    split
    · exact supplied_of_isNumeral (isNumeral_toString _)
    · simp +decide [h enumerated rfl]

private theorem supplies_writeEnumerators (reduce : Bool) {previous : Option Enumerated} {enumerators : List Node}
    (hprevious : ∀ enumerated ∈ previous, Supplied runtimeModule Used enumerated.name)
    (h : ∀ enumerator ∈ enumerators, Everywhere (Node.IsSupplied runtimeModule Used) enumerator) :
    (writeEnumerators reduce previous enumerators).Supplies Used (SuppliedCode runtimeModule Used) := by
  have hline : ∀ {name text : String} {others : List Code}, Supplied runtimeModule Used name →
      Supplied runtimeModule Used text → SuppliedCode runtimeModule Used others →
      SuppliedCode runtimeModule Used (.line (name ++ " = " ++ text) :: others) := fun hname htext hothers =>
    (SuppliedCode.line (by simp +decide [hname, htext])).append hothers
  induction previous, enumerators using writeEnumerators.induct reduce with
  | case1 previous => exact .pure .nil
  | case2 previous name rest member value ih =>
    obtain ⟨henumerator, hrest⟩ := List.forall_mem_cons.mp h
    have hname := supplied_escapeName (henumerator.self name (List.mem_singleton_self name))
    have hvalue := supplies_renderExpr reduce (henumerator.parts value (by simp [Node.parts]))
    rw [writeEnumerators]
    exact hvalue.bind fun text htext => (ih value.intValue? (by rintro _ ⟨⟩; exact hname) hrest).map
      fun others hothers => hline hname htext hothers
  | case3 previous name rest member ih =>
    obtain ⟨henumerator, hrest⟩ := List.forall_mem_cons.mp h
    have hname := supplied_escapeName (henumerator.self name (List.mem_singleton_self name))
    rw [writeEnumerators]
    exact (ih (nextEnumerated previous).2 (by rintro _ ⟨⟩; exact hname) hrest).map
      fun others hothers => hline hname (supplied_nextEnumerated hprevious) hothers
  | case4 previous other rest hother =>
    rw [writeEnumerators]
    · exact .fail _
    · exact hother

private theorem supplied_classCode (context : Context) {header : String} {code : List Code}
    (hheader : Supplied runtimeModule Used header) (h : SuppliedCode runtimeModule Used code) :
    SuppliedCode runtimeModule Used (classCode context header code) := by
  have hblank : SuppliedCode runtimeModule Used (if context.role.isModuleScope then [.blank 2] else []) := by
    split
    · exact .blank 2
    · exact .nil
  exact hblank.append (.suite hheader h.orPass)

private theorem supplies_writeEnum (reduce : Bool) {name : Option String} {values : Node}
    (hname : ∀ text ∈ name, Supplied runtimeModule Used text)
    (h : Everywhere (Node.IsSupplied runtimeModule Used) values) :
    (writeEnum reduce context name values).Supplies Used (SuppliedCode runtimeModule Used) := by
  unfold writeEnum
  split
  · next enumerators =>
    have hnone : ∀ enumerated ∈ (none : Option Enumerated), Supplied runtimeModule Used enumerated.name := by simp
    have hbody := supplies_writeEnumerators reduce hnone h.parts
    split
    · next tag =>
      have htag := supplied_escapeName (hname tag rfl)
      refine (Traced.Supplies.use _).bind fun _ hused => hbody.map fun body hbody => supplied_classCode context ?_ hbody
      have hopening : Supplied runtimeModule Used "(IntEnum" :=
        supplied_append_symbol ⟨"enum", "IntEnum"⟩ (by simp [importable]) hused (by decide : endsApart "(" = true)
          (by decide)
      have hbase : Supplied runtimeModule Used "(IntEnum):" :=
        (supplied_append_right (by decide : startsApart "):" = true)).mpr ⟨hopening, by simp +decide⟩
      simp +decide [htag, hbase]
    · exact hbody
  · exact .fail _

private theorem mem_fieldHints_supplied {members : List Node}
    (h : ∀ member ∈ members, Everywhere (Node.IsSupplied runtimeModule Used) member) :
    ∀ field ∈ fieldHints members, Supplied runtimeModule Used field.1 ∧ field.2.Supplies runtimeModule Used := by
  induction members using fieldHints.induct with
  | case1 => exact List.forall_mem_nil _
  | case2 name quals storage type init width rest ih =>
    obtain ⟨hmember, hrest⟩ := List.forall_mem_cons.mp h
    exact List.forall_mem_cons.mpr ⟨⟨supplied_escapeName (hmember.self name (List.mem_singleton_self name)),
      supplies_typeHint (hmember.parts type (by simp [Node.parts]))⟩, ih hrest⟩
  | case3 other rest hother ih =>
    rw [fieldHints]
    · exact ih (List.forall_mem_cons.mp h).2
    · exact hother

private theorem supplies_writeAggregate {name : Option String} {members : Option (List Node)}
    (hname : ∀ text ∈ name, Supplied runtimeModule Used text)
    (h : ∀ member ∈ members.getD [], Everywhere (Node.IsSupplied runtimeModule Used) member) :
    (writeAggregate options context name members).Supplies Used (SuppliedCode runtimeModule Used) := by
  unfold writeAggregate
  split
  · next tag members =>
    have htag := supplied_escapeName (hname tag rfl)
    split
    · have hlines : ((fieldHints members).mapM fun field => do
          return Code.line (field.1 ++ ": " ++ (← field.2.toTraced)) : Traced (List Code)).Supplies Used
            fun lines => ∀ line ∈ lines, SuppliedCode runtimeModule Used [line] := by
        refine Traced.Supplies.mapM fun field hfield => ?_
        obtain ⟨hmember, hhint⟩ := mem_fieldHints_supplied h field hfield
        exact (supplies_toTraced hhint).map fun text htext => .line (by simp +decide [hmember, htext])
      exact hlines.map fun lines hlines =>
        supplied_classCode context (by simp +decide [htag]) (.of_forall hlines)
    · exact .pure .nil
  · exact .pure .nil

private theorem supplies_writeInnerDefinitions {type : Node}
    (h : Everywhere (Node.IsSupplied runtimeModule Used) type) :
    (writeInnerDefinitions options context type).Supplies Used (SuppliedCode runtimeModule Used) := by
  induction type using writeInnerDefinitions.induct with
  | case1 name type ih => exact ih (h.parts type (by simp [Node.parts]))
  | case2 target ih => exact ih (h.parts target (by simp [Node.parts]))
  | case3 element size ih => exact ih (h.parts element (by simp [Node.parts]))
  | case4 name values =>
    exact supplies_writeEnum _ (fun tag htag => h.self tag (Option.mem_toList.mpr htag))
      (h.parts values (by simp [Node.parts]))
  | case5 name members =>
    exact supplies_writeAggregate (fun tag htag => h.self tag (Option.mem_toList.mpr htag)) h.parts
  | case6 name members =>
    exact supplies_writeAggregate (fun tag htag => h.self tag (Option.mem_toList.mpr htag)) h.parts
  | case7 type =>
    rw [writeInnerDefinitions]
    · exact .pure .nil
    all_goals assumption

private theorem supplies_writeInitialized {target : String} {type init : Node}
    (htarget : Supplied runtimeModule Used target) (htype : Everywhere (Node.IsSupplied runtimeModule Used) type)
    (hinit : Everywhere (Node.IsSupplied runtimeModule Used) init) :
    (writeInitialized options target type init).Supplies Used (SuppliedCode runtimeModule Used) := by
  refine (supplies_renderExpr options.reduceParentheses hinit).bind fun value hvalue => ?_
  split
  · exact (supplies_toTraced (supplies_typeHint htype)).map fun hint hhint =>
      .line (by simp +decide [htarget, hhint, hvalue])
  · exact .pure (.line (by simp +decide [htarget, hvalue]))

private theorem supplies_writeUninitialized {target : String} {type : Node}
    (htarget : Supplied runtimeModule Used target) (htype : Everywhere (Node.IsSupplied runtimeModule Used) type) :
    (writeUninitialized options context target type).Supplies Used (SuppliedCode runtimeModule Used) := by
  have hhint := supplies_toTraced (supplies_typeHint htype)
  unfold writeUninitialized
  split_ifs
  · exact .pure .nil
  · exact hhint.map fun text htext => .line (by simp +decide [htarget, htext])
  · exact .pure (.line (by simp +decide [htarget]))
  · exact hhint.map fun text htext => .line (by simp +decide [htarget, htext])

theorem supplies_writeDecl {decl : Node} (h : Everywhere (Node.IsSupplied runtimeModule Used) decl) :
    (writeDecl options context decl).Supplies Used (SuppliedCode runtimeModule Used) := by
  unfold writeDecl
  split
  · exact .pure .nil
  · next quals storage name values init width =>
    have htype := h.parts (.enum name (some values)) (List.mem_cons_self ..)
    exact supplies_writeEnum _ (fun tag htag => htype.self tag (Option.mem_toList.mpr htag))
      (htype.parts values (by simp [Node.parts]))
  · next quals storage name members init width =>
    have htype := h.parts (.struct name members) (List.mem_cons_self ..)
    exact supplies_writeAggregate (fun tag htag => htype.self tag (Option.mem_toList.mpr htag)) htype.parts
  · next quals storage name members init width =>
    have htype := h.parts (.union name members) (List.mem_cons_self ..)
    exact supplies_writeAggregate (fun tag htag => htype.self tag (Option.mem_toList.mpr htag)) htype.parts
  · exact .pure .nil
  · next name quals storage type init width hfunction =>
    have hname := supplied_escapeName (h.self name (List.mem_singleton_self name))
    have htype := h.parts type (by simp [Node.parts])
    refine (supplies_writeInnerDefinitions htype).bind fun inner hinner => ?_
    cases init with
    | none => exact (supplies_writeUninitialized hname htype).map fun line hline => hinner.append hline
    | some init =>
      exact (supplies_writeInitialized hname htype (h.parts init (by simp [Node.parts]))).map
        fun line hline => hinner.append hline
  · exact .fail _

theorem supplies_writeTypedef {name : String} {type : Node}
    (h : Everywhere (Node.IsSupplied runtimeModule Used) (.typedef name type)) :
    (writeTypedef options context name type).Supplies Used (SuppliedCode runtimeModule Used) := by
  have hname : ∀ text ∈ some name, Supplied runtimeModule Used text := fun text htext => by
    cases htext
    exact h.self name (List.mem_singleton_self name)
  have htype := h.parts type (by simp [Node.parts])
  have hdefined : Everywhere (Node.IsSupplied runtimeModule Used) (definedType type) := by
    unfold definedType
    split
    · exact htype.parts _ (by simp [Node.parts])
    · exact htype
  unfold writeTypedef
  split
  · next tag values heq =>
    rw [heq] at hdefined
    exact supplies_writeEnum _ hname (hdefined.parts values (by simp [Node.parts]))
  · next tag members heq =>
    rw [heq] at hdefined
    exact supplies_writeAggregate hname hdefined.parts
  · next tag members heq =>
    rw [heq] at hdefined
    exact supplies_writeAggregate hname hdefined.parts
  · have htarget := supplied_escapeName (hname name rfl)
    split
    · exact (supplies_toTraced (supplies_typeHint htype)).map fun hint hhint =>
        .line (by simp +decide [htarget, hhint])
    · exact .pure .nil

/-! ### Simple statements -/

private theorem supplies_writeStep (reduce : Bool) {step : Step}
    (h : Everywhere (Node.IsSupplied runtimeModule Used) step.operand) :
    (writeStep reduce step).Supplies Used fun line => SuppliedCode runtimeModule Used [line] :=
  (supplies_renderExpr reduce h).map fun target htarget => .line (by split <;> simp +decide [htarget])

private theorem supplies_exprLine (reduce : Bool) {expr : Node}
    (h : Everywhere (Node.IsSupplied runtimeModule Used) expr) :
    (do return [Code.line (← renderExpr reduce expr)] : Traced (List Code)).Supplies Used
      (SuppliedCode runtimeModule Used) :=
  (supplies_renderExpr reduce h).map fun _ htext => .line htext

private theorem supplies_writeAssert (reduce : Bool) {cond : Node} {note : Option Node}
    (hcond : Everywhere (Node.IsSupplied runtimeModule Used) cond)
    (hnote : ∀ text ∈ note, Everywhere (Node.IsSupplied runtimeModule Used) text) :
    (writeAssert reduce cond note).Supplies Used (SuppliedCode runtimeModule Used) := by
  refine (supplies_renderExpr reduce hcond).bind fun test htest => ?_
  cases note with
  | none => exact .pure (.line (by simp +decide [htest]))
  | some note =>
    exact (supplies_renderExpr reduce (hnote note rfl)).map fun text htext => .line (by simp +decide [htest, htext])

theorem supplies_writeSimple (hgoto : ∀ call ∈ options.gotoCall, Supplied runtimeModule Used call) {stmt : Node}
    (h : Everywhere (Node.IsSupplied runtimeModule Used) stmt) :
    (writeSimple options context stmt).Supplies Used (SuppliedCode runtimeModule Used) := by
  unfold writeSimple
  split
  case h_1 => exact supplies_writeDecl h
  case h_2 decls =>
    exact (Traced.Supplies.mapM fun decl hdecl => supplies_writeDecl (h.parts decl hdecl)).map
      fun parts hparts => .flatten hparts
  case h_3 name type => exact supplies_writeTypedef h
  case h_4 op target value =>
    have hop : Supplied runtimeModule Used op := h.self op (List.mem_singleton_self op)
    exact (supplies_renderAssignment _ hop (h.parts target (by simp [Node.parts]))
      (h.parts value (by simp [Node.parts]))).map fun text htext => .line htext
  case h_5 op operand =>
    split
    · have hoperand : Everywhere (Node.IsSupplied runtimeModule Used) (Step.mk op operand).operand :=
        h.parts operand (by simp [Node.parts])
      exact (supplies_writeStep _ hoperand).map fun line hline => hline
    · exact supplies_exprLine _ h
  case h_6 => exact .pure (.line (by simp +decide))
  case h_7 value =>
    exact (supplies_renderExpr _ (h.parts value (by simp [Node.parts]))).map
      fun text htext => .line (by simp +decide [htext])
  case h_8 =>
    refine .pure ?_
    split
    · exact .nil
    · exact .line (by simp +decide)
  case h_9 =>
    refine .pure ?_
    split
    · exact .nil
    · exact .line (by simp +decide)
  case h_10 label =>
    have hlabel : Supplied runtimeModule Used label := h.self label (List.mem_singleton_self label)
    split
    · next call hcall =>
      have hcall := hgoto call hcall
      exact .pure (.line (by simp +decide [hcall, hlabel]))
    · exact .fail _
  case h_11 => exact .pure .nil
  case h_12 text =>
    have htext : Supplied runtimeModule Used (text.getD "") := by
      cases text with
      | none => exact supplied_of_isPlain (by decide : isPlain "" = true)
      | some text => exact h.self text (List.mem_singleton_self text)
    exact .pure (.line (by simp +decide [htext]))
  case h_13 cond note =>
    exact supplies_writeAssert _ (h.parts cond (by simp [Node.parts]))
      fun text htext => h.parts text (List.mem_cons_of_mem cond (Option.mem_toList.mpr htext))
  case h_14 => exact .fail _
  case h_15 => exact .fail _
  case h_24 => exact .fail _
  all_goals exact supplies_exprLine _ h

/-! ### Switches -/

/-- The code of the statements is supplied by their uses. -/
def SuppliesBody (runtimeModule : String) (Used : Import → Prop) (body : List (Written TracedCode)) : Prop :=
  ∀ written ∈ body, written.code.Supplies Used (SuppliedCode runtimeModule Used)

/-- The host symbols in the texts of a label are used. -/
def CaseLabel.IsSupplied (runtimeModule : String) (Used : Import → Prop) (label : CaseLabel) : Prop :=
  ∀ node ∈ label.value?, Everywhere (Node.IsSupplied runtimeModule Used) node

/-- The labels and the statements of an arm are supplied. -/
structure SuppliesArm (runtimeModule : String) (Used : Import → Prop) (arm : Arm TracedCode) : Prop where
  labels : ∀ label ∈ arm.labels, label.IsSupplied runtimeModule Used
  body : SuppliesBody runtimeModule Used arm.body

/-- The label and the statements of an item are supplied; other items are not accepted. -/
def SuppliesItem (runtimeModule : String) (Used : Import → Prop) : SwitchItem TracedCode → Prop
  | .labelled label stmts => label.IsSupplied runtimeModule Used ∧ SuppliesBody runtimeModule Used stmts
  | .other _ => True

private theorem supplies_sequence {body : List (Written TracedCode)} (h : SuppliesBody runtimeModule Used body) :
    (sequence body).Supplies Used (SuppliedCode runtimeModule Used) := by
  induction body with
  | nil => exact .pure .nil
  | cons written rest ih =>
    obtain ⟨hwritten, hrest⟩ := List.forall_mem_cons.mp h
    exact hwritten.bind fun code hcode => (ih hrest).map fun others hothers => hcode.append hothers

private theorem supplies_armsFrom (reduce : Bool) {labels : List CaseLabel} {items : List (SwitchItem TracedCode)}
    (hlabels : ∀ label ∈ labels, label.IsSupplied runtimeModule Used)
    (h : ∀ item ∈ items, SuppliesItem runtimeModule Used item) :
    (armsFrom reduce labels items).Supplies Used fun arms => ∀ arm ∈ arms, SuppliesArm runtimeModule Used arm := by
  induction labels, items using armsFrom.induct with
  | case1 labels =>
    refine .pure ?_
    split
    · exact List.forall_mem_nil _
    · exact List.forall_mem_singleton.mpr ⟨hlabels, List.forall_mem_nil _⟩
  | case2 => exact .fail _
  | case3 labels label rest ih =>
    obtain ⟨⟨hlabel, -⟩, hrest⟩ := List.forall_mem_cons.mp h
    exact ih (List.forall_mem_append.mpr ⟨hlabels, List.forall_mem_singleton.mpr hlabel⟩) hrest
  | case4 labels label first others rest ih =>
    obtain ⟨⟨hlabel, hbody⟩, hrest⟩ := List.forall_mem_cons.mp h
    refine (Traced.Supplies.trivial _).bind fun _ _ => (Traced.Supplies.trivial _).bind fun _ _ =>
      (ih (List.forall_mem_nil _) hrest).map fun arms harms => List.forall_mem_cons.mpr ⟨⟨?_, hbody⟩, harms⟩
    exact List.forall_mem_append.mpr ⟨hlabels, List.forall_mem_singleton.mpr hlabel⟩

private theorem supplies_patterns? (reduce : Bool) {labels : List Node}
    (h : ∀ label ∈ labels, Everywhere (Node.IsSupplied runtimeModule Used) label) :
    (patterns? reduce labels).Supplies Used
      fun patterns => ∀ texts ∈ patterns, ∀ text ∈ texts, Supplied runtimeModule Used text := by
  induction labels with
  | nil => exact .pure fun texts htexts => by cases htexts; exact List.forall_mem_nil _
  | cons label rest ih =>
    obtain ⟨hlabel, hrest⟩ := List.forall_mem_cons.mp h
    unfold patterns?
    split
    · refine (supplies_renderExpr reduce hlabel).bind fun text htext => (ih hrest).map fun others hothers => ?_
      intro texts htexts
      obtain ⟨patterns, hpatterns, rfl⟩ := Option.map_eq_some_iff.mp htexts
      exact List.forall_mem_cons.mpr ⟨htext, hothers patterns hpatterns⟩
    · exact .pure fun texts htexts => by cases htexts

private theorem everywhere_binary {left right : Node} (op : String)
    (hleft : Everywhere (Node.IsSupplied runtimeModule Used) left)
    (hright : Everywhere (Node.IsSupplied runtimeModule Used) right) :
    Everywhere (Node.IsSupplied runtimeModule Used) (.binary op left right) :=
  .of_parts (List.forall_mem_nil _) (by simp [Node.parts, hleft, hright])

private theorem everywhere_guardOf {cond : Node} {labels : List Node}
    (hcond : Everywhere (Node.IsSupplied runtimeModule Used) cond)
    (h : ∀ label ∈ labels, Everywhere (Node.IsSupplied runtimeModule Used) label) :
    ∀ guard ∈ guardOf cond labels, Everywhere (Node.IsSupplied runtimeModule Used) guard := by
  cases labels with
  | nil => simp [guardOf]
  | cons label rest =>
    obtain ⟨hlabel, hrest⟩ := List.forall_mem_cons.mp h
    have hfold : ∀ test, Everywhere (Node.IsSupplied runtimeModule Used) test →
        Everywhere (Node.IsSupplied runtimeModule Used)
          (rest.foldl (fun test label => .binary "||" test (.binary "==" cond label)) test) := by
      clear h
      induction rest with
      | nil => exact fun _ htest => htest
      | cons next others ih =>
        obtain ⟨hnext, hothers⟩ := List.forall_mem_cons.mp hrest
        exact fun test htest => ih hothers _ (everywhere_binary _ htest (everywhere_binary _ hcond hnext))
    intro guard hguard
    cases hguard
    exact hfold _ (everywhere_binary _ hcond hlabel)

private theorem supplies_caseHeader (reduce : Bool) {cond : Node} {arm : Arm TracedCode}
    (hcond : Everywhere (Node.IsSupplied runtimeModule Used) cond) (h : SuppliesArm runtimeModule Used arm) :
    (caseHeader reduce cond arm).Supplies Used (Supplied runtimeModule Used) := by
  have hlabels : ∀ label ∈ arm.labels.filterMap CaseLabel.value?,
      Everywhere (Node.IsSupplied runtimeModule Used) label := by
    intro node hnode
    obtain ⟨label, hlabel, hvalue⟩ := List.mem_filterMap.mp hnode
    exact h.labels label hlabel node hvalue
  unfold caseHeader
  split
  · exact .pure (supplied_of_isPlain (by decide))
  · refine (supplies_patterns? reduce hlabels).bind fun patterns hpatterns => ?_
    cases patterns with
    | some patterns =>
      have htexts := supplied_intercalate " | " (by decide) (by decide) (by decide) (by decide) (hpatterns patterns rfl)
      exact .pure (by simp +decide [htexts])
    | none =>
      dsimp only
      split
      · exact .fail _
      · split
        · next guard hguard =>
          have hguard := everywhere_guardOf hcond hlabels guard hguard
          exact (supplies_renderExpr reduce hguard).map fun text htext => by simp +decide [htext]
        · exact .fail _

private theorem supplies_writeMatch (reduce : Bool) {cond : Node} {arms : List (Arm TracedCode)}
    (hcond : Everywhere (Node.IsSupplied runtimeModule Used) cond)
    (h : ∀ arm ∈ arms, SuppliesArm runtimeModule Used arm) :
    (writeMatch reduce cond arms).Supplies Used (SuppliedCode runtimeModule Used) := by
  refine (supplies_renderExpr reduce hcond).bind fun subject hsubject => ?_
  have hsuites : ((matchOrder arms).mapM fun arm => do
      let header ← caseHeader reduce cond arm
      return Code.suite header (Code.orPass (← sequence arm.body)) : Traced (List Code)).Supplies Used
        fun suites => ∀ suite ∈ suites, SuppliedCode runtimeModule Used [suite] := by
    refine Traced.Supplies.mapM fun arm harm => ?_
    have harm := h arm (mem_of_mem_matchOrder harm)
    exact (supplies_caseHeader reduce hcond harm).bind fun header hheader =>
      (supplies_sequence harm.body).map fun body hbody => .suite hheader hbody.orPass
  exact hsuites.map fun suites hsuites => .suite (by simp +decide [hsubject]) (.of_forall hsuites)

private theorem supplies_writeChain (reduce first : Bool) {cond : Node}
    {entries : List (CaseLabel × List (Written TracedCode))}
    (hcond : Everywhere (Node.IsSupplied runtimeModule Used) cond)
    (h : ∀ entry ∈ entries, entry.1.IsSupplied runtimeModule Used ∧ SuppliesBody runtimeModule Used entry.2) :
    (writeChain reduce cond first entries).Supplies Used (SuppliedCode runtimeModule Used) := by
  induction first, entries using writeChain.induct with
  | case1 => exact .pure .nil
  | case2 first label stmts rest ih =>
    obtain ⟨⟨hlabel, hstmts⟩, hrest⟩ := List.forall_mem_cons.mp h
    have htest := everywhere_binary "==" hcond (hlabel label rfl)
    refine (supplies_renderExpr reduce htest).bind fun test htest => (supplies_sequence hstmts).bind fun body hbody =>
      (ih hrest).map fun others hothers => SuppliedCode.append (.suite ?_ hbody.orPass) hothers
    split <;> simp +decide [htest]
  | case3 first stmts rest ih =>
    obtain ⟨⟨-, hstmts⟩, hrest⟩ := List.forall_mem_cons.mp h
    refine (supplies_sequence hstmts).bind fun body hbody => (ih hrest).map fun others hothers =>
      SuppliedCode.append ?_ hothers
    split
    · exact hbody
    · exact .suite (by simp +decide) hbody.orPass

private theorem mem_entries_supplied {arms : List (Arm TracedCode)}
    (h : ∀ arm ∈ arms, SuppliesArm runtimeModule Used arm) :
    ∀ entry ∈ entries arms, entry.1.IsSupplied runtimeModule Used ∧ SuppliesBody runtimeModule Used entry.2 := by
  intro entry hentry
  refine ⟨?_, fun written hwritten => ?_⟩
  · have hlabel : entry.1 ∈ arms.flatMap Arm.labels := by
      rw [← map_fst_entries]
      exact List.mem_map_of_mem hentry
    obtain ⟨arm, harm, hlabel⟩ := List.mem_flatMap.mp hlabel
    exact (h arm harm).labels entry.1 hlabel
  · obtain ⟨arm, harm, hbody⟩ := exists_arm_of_mem_entries hentry hwritten
    exact (h arm harm).body written hbody

private theorem supplies_writeSwitch (reduce : Bool) {cond : Node} {items : List (SwitchItem TracedCode)}
    (hcond : Everywhere (Node.IsSupplied runtimeModule Used) cond)
    (h : ∀ item ∈ items, SuppliesItem runtimeModule Used item) :
    (writeSwitch reduce cond items).Supplies Used (SuppliedCode runtimeModule Used) := by
  refine (supplies_armsFrom reduce (List.forall_mem_nil _) h).bind fun arms harms => ?_
  have hchain : (writeChain reduce cond true ((regions arms).flatMap regionEntries)).Supplies Used
      (SuppliedCode runtimeModule Used) := by
    rw [regionEntries_regions]
    exact supplies_writeChain reduce true hcond (mem_entries_supplied harms)
  split
  · exact .pure .nil
  · split
    · unfold writeFallthrough
      split
      · split
        · exact .fail _
        · exact hchain
      · split
        · exact .fail _
        · exact hchain
      · exact .fail _
    · exact supplies_writeMatch reduce hcond harms

/-! ### Branches and loops -/

private theorem supplied_elseCode (after : Bool) {code : List Code} (h : SuppliedCode runtimeModule Used code) :
    SuppliedCode runtimeModule Used (elseCode after code) := by
  unfold elseCode
  split
  · exact .suite (by simp +decide) h.orPass
  · exact h

private theorem supplies_writeIf (reduce after : Bool) {cond : Node} {whenTrue : Traced (List Code)}
    {whenFalse : Bool → Traced (List Code)} (hcond : Everywhere (Node.IsSupplied runtimeModule Used) cond)
    (htrue : whenTrue.Supplies Used (SuppliedCode runtimeModule Used))
    (hfalse : ∀ after, (whenFalse after).Supplies Used (SuppliedCode runtimeModule Used)) :
    (writeIf reduce after cond whenTrue whenFalse).Supplies Used (SuppliedCode runtimeModule Used) := by
  unfold writeIf
  split
  · split
    · exact htrue.map fun code hcode => supplied_elseCode after hcode
    · exact hfalse after
  · refine (supplies_renderExpr reduce hcond).bind fun test htest => htrue.bind fun body hbody =>
      (hfalse true).map fun rest hrest => SuppliedCode.append (.suite ?_ hbody.orPass) hrest
    split <;> simp +decide [htest]

/-- The test and the steps of a split test are supplied. -/
structure SplitTest.IsSupplied (runtimeModule : String) (Used : Import → Prop) (split : SplitTest) : Prop where
  before : ∀ step ∈ split.before, Everywhere (Node.IsSupplied runtimeModule Used) step.operand
  cond : Everywhere (Node.IsSupplied runtimeModule Used) split.cond
  after : ∀ step ∈ split.after, Everywhere (Node.IsSupplied runtimeModule Used) step.operand

private theorem isSupplied_pure {cond : Node} (h : Everywhere (Node.IsSupplied runtimeModule Used) cond) :
    (SplitTest.pure cond).IsSupplied runtimeModule Used := ⟨List.forall_mem_nil _, h, List.forall_mem_nil _⟩

private theorem isSupplied_splitOperand {node : Node} {split : SplitTest}
    (h : Everywhere (Node.IsSupplied runtimeModule Used) node) (hsplit : splitOperand node = .ok split) :
    split.IsSupplied runtimeModule Used := by
  rcases splitOperand_ok hsplit with ⟨-, rfl⟩ | ⟨op, operand, rfl, -, rfl⟩
  · exact isSupplied_pure h
  · have hoperand := h.parts operand (by simp [Node.parts])
    refine ⟨?_, hoperand, List.forall_mem_singleton.mpr hoperand⟩
    rw [SplitTest.ofStep]
    split
    · exact List.forall_mem_nil _
    · exact List.forall_mem_singleton.mpr hoperand

private theorem isSupplied_splitTest {cond : Node} {split : SplitTest}
    (h : Everywhere (Node.IsSupplied runtimeModule Used) cond) (hsplit : splitTest cond = .ok split) :
    split.IsSupplied runtimeModule Used := by
  rcases splitTest_ok hsplit with ⟨-, rfl⟩ | ⟨-, hoperand | ⟨op, left, right, l, r, rfl, -, hl, hr, rfl⟩⟩
  · exact isSupplied_pure h
  · exact isSupplied_splitOperand h hoperand
  · have hleft := isSupplied_splitOperand (h.parts left (by simp [Node.parts])) hl
    have hright := isSupplied_splitOperand (h.parts right (by simp [Node.parts])) hr
    exact ⟨List.forall_mem_append.mpr ⟨hleft.before, hright.before⟩, everywhere_binary op hleft.cond hright.cond,
      List.forall_mem_append.mpr ⟨hleft.after, hright.after⟩⟩

private theorem supplies_steps (reduce : Bool) {steps : List Step}
    (h : ∀ step ∈ steps, Everywhere (Node.IsSupplied runtimeModule Used) step.operand) :
    (steps.mapM (writeStep reduce)).Supplies Used (SuppliedCode runtimeModule Used) :=
  (Traced.Supplies.mapM fun step hstep => supplies_writeStep reduce (h step hstep)).mono
    fun _ hlines => .of_forall hlines

private theorem supplies_writeWhile (reduce : Bool) {cond body : Node} {bodyCode : Traced (List Code)}
    (hcond : Everywhere (Node.IsSupplied runtimeModule Used) cond)
    (hbody : bodyCode.Supplies Used (SuppliedCode runtimeModule Used)) :
    (writeWhile reduce cond body bodyCode).Supplies Used (SuppliedCode runtimeModule Used) := by
  have hsplit : (⟨[], splitTest cond⟩ : Traced SplitTest).Supplies Used (SplitTest.IsSupplied runtimeModule Used) :=
    fun _ split hresult => isSupplied_splitTest hcond hresult
  refine hsplit.bind fun test htest => ?_
  refine .guard (.guard ?_)
  exact (supplies_steps reduce htest.before).bind fun before hbefore =>
    (supplies_renderExpr reduce htest.cond).bind fun text htext => hbody.bind fun body hbody =>
      (supplies_steps reduce htest.after).map fun after hafter =>
        hbefore.append (.suite (by simp +decide [htext]) (hbody.append hafter).orPass)

private theorem supplied_leaveUnless {test : String} (h : Supplied runtimeModule Used test) :
    SuppliedCode runtimeModule Used [leaveUnless test] := .line (by simp +decide [h])

private theorem supplies_writeSteppedLoop (reduce : Bool) {cond : Option Node} {bodyCode nextCode : Traced (List Code)}
    (hcond : ∀ test ∈ cond, Everywhere (Node.IsSupplied runtimeModule Used) test)
    (hbody : bodyCode.Supplies Used (SuppliedCode runtimeModule Used))
    (hnext : nextCode.Supplies Used (SuppliedCode runtimeModule Used)) :
    (writeSteppedLoop reduce cond bodyCode nextCode).Supplies Used (SuppliedCode runtimeModule Used) := by
  cases cond with
  | none =>
    exact hbody.bind fun body hbody => hnext.map fun next hnext =>
      .suite (by simp +decide) (hbody.append hnext).orPass
  | some cond =>
    refine (supplies_renderExpr reduce (hcond cond rfl)).bind fun test htest =>
      hbody.bind fun body hbody => hnext.map fun next hnext => .suite (by simp +decide [htest]) ?_
    exact .suite (by simp +decide) ((hbody.append hnext).append (supplied_leaveUnless htest))

/-- The parts of a counting loop are supplied. -/
structure Counting.IsSupplied (runtimeModule : String) (Used : Import → Prop) (loop : Counting) : Prop where
  counter : Supplied runtimeModule Used loop.counter
  start : Everywhere (Node.IsSupplied runtimeModule Used) loop.start
  bound : Everywhere (Node.IsSupplied runtimeModule Used) loop.bound

private theorem isSupplied_induction? {init start : Node} {counter : String}
    (h : Everywhere (Node.IsSupplied runtimeModule Used) init) (hinduction : induction? init = some (counter, start)) :
    Supplied runtimeModule Used counter ∧ Everywhere (Node.IsSupplied runtimeModule Used) start := by
  unfold induction? at hinduction
  split at hinduction
  · next op name value =>
    split_ifs at hinduction
    cases hinduction
    have htarget := h.parts (.ident counter) (by simp [Node.parts])
    exact ⟨htarget.self counter (List.mem_singleton_self counter), h.parts start (by simp [Node.parts])⟩
  · next name quals storage type value width =>
    cases hinduction
    have hdecl := h.parts _ (List.mem_singleton_self _)
    exact ⟨hdecl.self counter (List.mem_singleton_self counter), hdecl.parts start (by simp [Node.parts])⟩
  · cases hinduction

private theorem everywhere_number (value : Int) :
    Everywhere (Node.IsSupplied runtimeModule Used) (.constant "int" (toString value)) :=
  .of_parts (isSupplied_number value) (List.forall_mem_nil _)

private theorem everywhere_rangeBound {direction : Direction} {inclusive : Bool} {bound : Node}
    (h : Everywhere (Node.IsSupplied runtimeModule Used) bound) :
    Everywhere (Node.IsSupplied runtimeModule Used) (rangeBound direction inclusive bound) := by
  unfold rangeBound
  split
  · exact h
  · split
    · exact everywhere_number _
    · exact everywhere_binary "+" h (everywhere_number 1)
    · exact everywhere_binary "-" h (everywhere_number 1)

private theorem isSupplied_counting? {init cond next : Node} {loop : Counting}
    (hinit : Everywhere (Node.IsSupplied runtimeModule Used) init)
    (hcond : Everywhere (Node.IsSupplied runtimeModule Used) cond) (h : counting? init cond next = some loop) :
    loop.IsSupplied runtimeModule Used := by
  simp only [counting?, Option.bind_eq_bind, Option.bind_eq_some_iff] at h
  obtain ⟨⟨counter, start⟩, hinduction, direction, -, h⟩ := h
  obtain ⟨hcounter, hstart⟩ := isSupplied_induction? hinit hinduction
  split at h
  · next op left right =>
    split at h
    · cases h
    · obtain ⟨inclusive, -, h⟩ := Option.bind_eq_some_iff.mp h
      cases h
      exact ⟨hcounter, hstart, everywhere_rangeBound (hcond.parts right (by simp [Node.parts]))⟩
  · cases h

private theorem supplies_countingHeader (reduce : Bool) {loop : Counting}
    (h : loop.IsSupplied runtimeModule Used) :
    (countingHeader reduce loop).Supplies Used (Supplied runtimeModule Used) := by
  have hcounter := supplied_escapeName h.counter
  refine (supplies_renderExpr reduce h.start).bind fun start hstart =>
    (supplies_renderExpr reduce h.bound).map fun bound hbound => ?_
  cases loop.direction <;> simp +decide [hcounter, hstart, hbound]

private theorem supplies_writeFor (reduce : Bool) {init cond next : Option Node} {body : Node}
    {initCode bodyCode nextCode : Traced (List Code)}
    (hheader : ∀ part ∈ init.toList ++ cond.toList, Everywhere (Node.IsSupplied runtimeModule Used) part)
    (hinit : initCode.Supplies Used (SuppliedCode runtimeModule Used))
    (hbody : bodyCode.Supplies Used (SuppliedCode runtimeModule Used))
    (hnext : nextCode.Supplies Used (SuppliedCode runtimeModule Used)) :
    (writeFor reduce init cond next body initCode bodyCode nextCode).Supplies Used
      (SuppliedCode runtimeModule Used) := by
  have hcond : ∀ test ∈ cond, Everywhere (Node.IsSupplied runtimeModule Used) test := fun test htest =>
    hheader test (List.mem_append_right _ (Option.mem_toList.mpr htest))
  unfold writeFor
  dsimp only
  split
  · next loop hloop =>
    have hloop : loop.IsSupplied runtimeModule Used := by
      simp only [Option.bind_eq_bind, Option.bind_eq_some_iff] at hloop
      obtain ⟨init, rfl, test, rfl, next, rfl, hloop⟩ := hloop
      exact isSupplied_counting? (hheader init (by simp)) (hcond test rfl) hloop
    exact (supplies_countingHeader reduce hloop).bind fun header hheader => hbody.map fun code hcode =>
      .suite hheader hcode.orPass
  · refine .guard (hinit.bind fun initLines hlines => ?_)
    split
    · exact (supplies_writeWhile reduce (hcond _ rfl) hbody).map fun loop hloop => hlines.append hloop
    · exact (supplies_writeSteppedLoop reduce hcond hbody hnext).map fun loop hloop => hlines.append hloop

private theorem supplies_writeDo (reduce : Bool) {cond body : Node} {bodyCode : Traced (List Code)}
    (hcond : Everywhere (Node.IsSupplied runtimeModule Used) cond)
    (hbody : bodyCode.Supplies Used (SuppliedCode runtimeModule Used)) :
    (writeDo reduce cond body bodyCode).Supplies Used (SuppliedCode runtimeModule Used) := by
  refine .guard ?_
  exact (supplies_renderExpr reduce hcond).bind fun test htest => hbody.map fun code hcode =>
    .suite (by simp +decide) (hcode.append (supplied_leaveUnless htest))

/-! ### Statements -/

/-- The code of the statement, wherever it stands, is supplied by its uses. -/
def SuppliesStmt (options : UnitOptions) (runtimeModule : String) (Used : Import → Prop) (stmt : Node) : Prop :=
  ∀ context after, (writeStmt options context after stmt).Supplies Used (SuppliedCode runtimeModule Used)

private theorem supplies_writeStmts {stmts : List Node}
    (h : ∀ stmt ∈ stmts, SuppliesStmt options runtimeModule Used stmt) :
    (writeStmts options context stmts).Supplies Used (SuppliedCode runtimeModule Used) := by
  induction stmts with
  | nil => exact .pure .nil
  | cons stmt rest ih =>
    obtain ⟨hstmt, hrest⟩ := List.forall_mem_cons.mp h
    exact (hstmt context false).bind fun code hcode => (ih hrest).map fun others hothers => hcode.append hothers

private theorem supplies_else (after : Bool) {piece : Traced (List Code)}
    (h : piece.Supplies Used (SuppliedCode runtimeModule Used)) :
    (do return elseCode after (← piece) : Traced (List Code)).Supplies Used (SuppliedCode runtimeModule Used) :=
  h.map fun _ hcode => supplied_elseCode after hcode

private theorem mem_writeItems_supplied {items : List Node} (h : ∀ item ∈ items, Everywhere (fun node =>
      node.IsSupplied runtimeModule Used ∧ SuppliesStmt options runtimeModule Used node) item) :
    ∀ item ∈ writeItems options context items, SuppliesItem runtimeModule Used item := by
  have hflat : ∀ stmts : List Node, (∀ stmt ∈ stmts, Everywhere (fun node =>
        node.IsSupplied runtimeModule Used ∧ SuppliesStmt options runtimeModule Used node) stmt) →
      SuppliesBody runtimeModule Used (writeFlat options context stmts) := by
    intro stmts hstmts item hitem
    rw [writeFlat_eq] at hitem
    obtain ⟨stmt, hstmt, rfl⟩ := List.mem_map.mp hitem
    have hsupplied := of_mem_flatten (fun node hnode part hpart => hnode.parts part (mem_parts_of_listed hpart)) hstmts
    exact (hsupplied stmt hstmt).self.2 context false
  induction items using partsOf.induct with
  | case1 => exact List.forall_mem_nil _
  | case2 label stmts rest ih =>
    obtain ⟨hitem, hrest⟩ := List.forall_mem_cons.mp h
    obtain ⟨hlabel, hstmts⟩ := List.forall_mem_cons.mp hitem.parts
    refine List.forall_mem_cons.mpr ⟨⟨fun node hnode => ?_, hflat stmts hstmts⟩, ih hrest⟩
    cases hnode
    exact hlabel.mono fun _ => And.left
  | case3 stmts rest ih =>
    obtain ⟨hitem, hrest⟩ := List.forall_mem_cons.mp h
    have hlabel : CaseLabel.default.IsSupplied runtimeModule Used := by simp [CaseLabel.IsSupplied, CaseLabel.value?]
    exact List.forall_mem_cons.mpr ⟨⟨hlabel, hflat stmts hitem.parts⟩, ih hrest⟩
  | case4 item rest hcase hdefault ih =>
    rw [writeItems]
    · exact List.forall_mem_cons.mpr ⟨True.intro, ih (List.forall_mem_cons.mp h).2⟩
    · exact hcase
    · exact hdefault

private theorem suppliesStmt_switch {cond body : Node} (hcond : Everywhere (Node.IsSupplied runtimeModule Used) cond)
    (h : Everywhere (Node.IsSupplied runtimeModule Used) body)
    (hstmts : Everywhere (SuppliesStmt options runtimeModule Used) body) :
    SuppliesStmt options runtimeModule Used (.switch cond body) := by
  intro context after
  have hboth := h.and hstmts
  have hitems : ∀ item ∈ switchItems body, Everywhere (fun node =>
      node.IsSupplied runtimeModule Used ∧ SuppliesStmt options runtimeModule Used node) item := by
    unfold switchItems
    split
    · exact hboth.parts
    · exact List.forall_mem_singleton.mpr hboth
  rw [writeStmt_switch]
  exact supplies_else after (supplies_writeSwitch _ hcond (mem_writeItems_supplied hitems))

/-- The code of the statements of a tree is supplied by their uses. -/
theorem everywhere_suppliesStmt (hgoto : ∀ call ∈ options.gotoCall, Supplied runtimeModule Used call) {stmt : Node}
    (h : Everywhere (Node.IsSupplied runtimeModule Used) stmt) :
    Everywhere (SuppliesStmt options runtimeModule Used) stmt := by
  refine Everywhere.derive h fun stmt hstmt hparts => ?_
  have hself : ∀ part ∈ stmt.parts, SuppliesStmt options runtimeModule Used part :=
    fun part hpart => (hparts part hpart).self
  intro context after
  unfold writeStmt
  split
  case h_1 cond whenTrue =>
    exact supplies_writeIf _ after (hstmt.parts cond (by simp [Node.parts]))
      (hself whenTrue (by simp [Node.parts]) context false) fun _ => .pure .nil
  case h_2 cond whenTrue whenFalse =>
    exact supplies_writeIf _ after (hstmt.parts cond (by simp [Node.parts]))
      (hself whenTrue (by simp [Node.parts]) context false) (hself whenFalse (by simp [Node.parts]) context)
  case h_3 items => exact supplies_else after (supplies_writeStmts hself)
  case h_4 exprs => exact supplies_else after (supplies_writeStmts hself)
  case h_5 label stmt =>
    have hlabel : Supplied runtimeModule Used label := hstmt.self label (List.mem_singleton_self label)
    refine (hself stmt (by simp [Node.parts]) context false).map fun body hbody => supplied_elseCode after ?_
    exact (SuppliedCode.line (by simp +decide [hlabel])).append hbody
  case h_6 init cond next body =>
    have hheader : ∀ part ∈ init.toList ++ cond.toList, Everywhere (Node.IsSupplied runtimeModule Used) part :=
      fun part hpart => hstmt.parts part (List.mem_cons_of_mem body (List.mem_append_left _ hpart))
    refine supplies_else after (supplies_writeFor _ hheader ?_
      (hself body (by simp [Node.parts]) context.enterLoop false) ?_)
    · cases init with
      | none => exact .pure .nil
      | some init => exact hself init (by simp [Node.parts]) context false
    · cases next with
      | none => exact .pure .nil
      | some next => exact hself next (by simp [Node.parts]) context false
  case h_7 cond body =>
    exact supplies_else after (supplies_writeWhile _ (hstmt.parts cond (by simp [Node.parts]))
      (hself body (by simp [Node.parts]) context.enterLoop false))
  case h_8 cond body =>
    split
    · exact supplies_else after (hself body (by simp [Node.parts]) context false)
    · exact supplies_else after (supplies_writeDo _ (hstmt.parts cond (by simp [Node.parts]))
        (hself body (by simp [Node.parts]) context.enterLoop false))
  case h_9 cond items =>
    have hbody := hstmt.parts (.block items) (by simp [Node.parts])
    exact suppliesStmt_switch (hstmt.parts cond (by simp [Node.parts])) hbody
      (hparts _ (by simp [Node.parts])) context after
  case h_10 cond label stmts =>
    exact suppliesStmt_switch (hstmt.parts cond (by simp [Node.parts]))
      (hstmt.parts (.caseLabel label stmts) (by simp [Node.parts])) (hparts _ (by simp [Node.parts])) context after
  case h_11 cond stmts =>
    exact suppliesStmt_switch (hstmt.parts cond (by simp [Node.parts]))
      (hstmt.parts (.defaultLabel stmts) (by simp [Node.parts])) (hparts _ (by simp [Node.parts])) context after
  case h_12 cond body _ _ _ =>
    exact supplies_else after (supplies_writeSwitch _ (hstmt.parts cond (by simp [Node.parts]))
      (List.forall_mem_singleton.mpr True.intro))
  case h_13 => exact supplies_else after (supplies_writeSimple hgoto hstmt)

theorem supplies_writeStmt (hgoto : ∀ call ∈ options.gotoCall, Supplied runtimeModule Used call) {stmt : Node}
    (h : Everywhere (Node.IsSupplied runtimeModule Used) stmt) (after : Bool) :
    (writeStmt options context after stmt).Supplies Used (SuppliedCode runtimeModule Used) :=
  (everywhere_suppliesStmt hgoto h).self context after

/-! ### Units -/

private theorem supplies_writeParamDefinitions {args : Option Node}
    (h : ∀ params ∈ args, Everywhere (Node.IsSupplied runtimeModule Used) params) :
    (writeParamDefinitions options context args).Supplies Used (SuppliedCode runtimeModule Used) := by
  unfold writeParamDefinitions
  split
  · next params =>
    have hparams := (h _ rfl).parts
    refine Traced.Supplies.map (Traced.Supplies.mapM fun param hparam => ?_) fun inner hinner => .flatten hinner
    split
    · exact supplies_writeInnerDefinitions ((hparams _ hparam).parts _ (List.mem_cons_self ..))
    · exact .pure .nil
  · exact .pure .nil

private theorem supplies_paramText (hints : Bool) (position : Nat) {param : Node}
    (h : Everywhere (Node.IsSupplied runtimeModule Used) param) :
    (paramText hints position param).Supplies Used (Supplied runtimeModule Used) := by
  have hhint := supplies_toTraced (supplies_typeHint h)
  have hnumbered : Supplied runtimeModule Used ("arg" ++ toString position) := supplied_numbered position
  unfold paramText
  split
  · exact .pure (supplied_of_isPlain (by decide))
  · next name quals storage type init width =>
    have hname := supplied_escapeName (h.self name (List.mem_singleton_self name))
    split
    · exact (supplies_toTraced (supplies_typeHint (h.parts type (by simp [Node.parts])))).map
        fun text htext => by simp +decide [hname, htext]
    · exact .pure hname
  · split
    · exact hhint.map fun text htext => (supplied_append_left (by simp +decide)).mpr
        ⟨(supplied_append_right (by decide)).mpr ⟨hnumbered, supplied_of_isPlain (by decide)⟩, htext⟩
    · exact .pure hnumbered

private theorem supplies_paramTexts (hints : Bool) (position : Nat) {params : List Node}
    (h : ∀ param ∈ params, Everywhere (Node.IsSupplied runtimeModule Used) param) :
    (paramTexts hints position params).Supplies Used fun texts => ∀ text ∈ texts, Supplied runtimeModule Used text := by
  induction params generalizing position with
  | nil => exact .pure (List.forall_mem_nil _)
  | cons param rest ih =>
    obtain ⟨hparam, hrest⟩ := List.forall_mem_cons.mp h
    exact (supplies_paramText hints position hparam).bind fun text htext => (ih (position + 1) hrest).map
      fun texts htexts => List.forall_mem_cons.mpr ⟨htext, htexts⟩

private theorem everywhere_paramsOf {args : Option Node}
    (h : ∀ params ∈ args, Everywhere (Node.IsSupplied runtimeModule Used) params) :
    ∀ param ∈ paramsOf args, Everywhere (Node.IsSupplied runtimeModule Used) param := by
  unfold paramsOf
  split
  · split
    · exact List.forall_mem_nil _
    · exact (h _ rfl).parts
  · exact List.forall_mem_nil _

private theorem supplies_signatureHead {name : String} (hname : Supplied runtimeModule Used (escapeName name))
    {args : Option Node} {result : Node} (hresult : Everywhere (Node.IsSupplied runtimeModule Used) result)
    (hargs : ∀ params ∈ args, Everywhere (Node.IsSupplied runtimeModule Used) params) :
    (signatureHead options name args result).Supplies Used (Supplied runtimeModule Used) := by
  refine (supplies_paramTexts options.typeHints 0 (everywhere_paramsOf hargs)).bind fun params hparams => ?_
  have hitems := supplied_commas hparams
  dsimp only
  split
  · exact (supplies_toTraced (supplies_typeHint hresult)).bind fun text htext =>
      .pure (by simp +decide [hname, hitems, htext])
  · exact .pure (by simp +decide [hname, hitems])

private theorem supplies_writeSignature {decl : Node} (h : Everywhere (Node.IsSupplied runtimeModule Used) decl) :
    (writeSignature options context decl).Supplies Used fun signature =>
      SuppliedCode runtimeModule Used signature.1 ∧ Supplied runtimeModule Used signature.2 := by
  unfold writeSignature
  split
  · next name quals storage args result init width =>
    have hname := supplied_escapeName (h.self name (List.mem_singleton_self name))
    have hfunction := h.parts (.functionType args result) (List.mem_cons_self ..)
    have hresult := hfunction.parts result (List.mem_cons_self ..)
    have hargs : ∀ params ∈ args, Everywhere (Node.IsSupplied runtimeModule Used) params := fun params hparams =>
      hfunction.parts params (List.mem_cons_of_mem result (Option.mem_toList.mpr hparams))
    refine (supplies_writeInnerDefinitions hresult).bind fun resultTypes hresultTypes =>
      (supplies_writeParamDefinitions hargs).bind fun paramTypes hparamTypes =>
        (supplies_signatureHead hname hresult hargs).bind fun head hhead =>
          .pure ⟨(hresultTypes.append hparamTypes).append (.blank 2), hhead⟩
  · exact .fail _
  · exact .fail _

/-- The host symbols in the code of an item are used, or they come from the item. -/
theorem supplies_writeExternal (hgoto : ∀ call ∈ options.gotoCall, Supplied runtimeModule Used call) {item : Node}
    (h : Everywhere (Node.IsSupplied runtimeModule Used) item) :
    (writeExternal options context item).Supplies Used (SuppliedCode runtimeModule Used) := by
  unfold writeExternal
  split
  · next decl params body =>
    have hbody := h.parts body (by simp [Node.parts])
    exact (supplies_writeSignature (h.parts decl (by simp [Node.parts]))).bind fun signature hsignature =>
      (supplies_writeStmt hgoto hbody false).map fun code hcode =>
        hsignature.1.append (.suite hsignature.2 hcode.orPass)
  · exact supplies_writeDecl h
  · exact supplies_writeTypedef h
  · exact supplies_writeStmt hgoto h false
  · exact supplies_writeStmt hgoto h false
  · exact .fail _

end StubGen.CUnit
