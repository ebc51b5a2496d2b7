import StubGen.Proofs.Switch.Execution

/-!
# Arms of a switch

The arms that `armsOf` gives are the parts of the switch, grouped, and each of them is `Arm.Valid`.

* `stmtsFrom_parts` gives the statements that run from an arm.
* `afterLabel_parts` finds a label among the entries of the arms.
* `sequence_eq` says that the code of these statements is the code of the arms.
-/

namespace StubGen.CUnit

open Traced

variable {options : UnitOptions} {context : Context}

/-- The last statement is the only one that may be a `break`, and it decides whether the arm is terminal. -/
structure Arm.Valid (options : UnitOptions) (context : Context) (arm : Arm TracedCode) : Prop where
  labels_ne : arm.labels ≠ []
  terminal_eq : arm.terminal = (arm.body.getLast?.map (·.stmt)).any isTerminal
  breaks : ∀ written ∈ arm.body.dropLast, written.stmt.isBreak = false
  code_eq : ∀ written ∈ arm.body, written.code = writeStmt options context false written.stmt

/-- The parts of an arm. -/
def Arm.parts (arm : Arm TracedCode) : List Part :=
  arm.labels.map .label ++ arm.body.map fun written => .stmt written.stmt

/-! ### Grouping -/

/-- A statement with its code. -/
def written (options : UnitOptions) (context : Context) (stmt : Node) : Written TracedCode :=
  ⟨stmt, writeStmt options context false stmt⟩

theorem writeFlat_eq (options : UnitOptions) (context : Context) (stmts : List Node) :
    writeFlat options context stmts = (flatten stmts).map (written options context) := by
  apply flatten.induct
    (fun stmt => ∀ rest, writeFlat options context (stmt :: rest) =
      (opened stmt).map (written options context) ++ writeFlat options context rest)
    (fun stmts => writeFlat options context stmts = (flatten stmts).map (written options context))
  case case1 =>
    intro items ih rest
    rw [writeFlat, ih, opened]
  case case2 =>
    intro stmt hplain rest
    rw [writeFlat, opened]
    · rfl
    all_goals exact hplain
  case case3 => rfl
  case case4 =>
    intro stmt rest ihstmt ihrest
    rw [ihstmt, ihrest, flatten, List.map_append]

private theorem checkBreaks_ok {label : String} {body : List (Written TracedCode)}
    (h : checkBreaks label body = .ok ()) :
    ∀ written ∈ body.dropLast, written.stmt.isBreak = false := by
  induction body with
  | nil => simp
  | cons first rest ih =>
    cases rest with
    | nil => simp
    | cons second others =>
      rw [checkBreaks] at h
      split at h
      · simp at h
      · rename_i hstmt
        split at h
        · cases h
        · intro written hwritten
          rw [List.dropLast_cons_cons, List.mem_cons] at hwritten
          rcases hwritten with rfl | hwritten
          · cases hfirst : written.stmt <;> first | rfl | exact absurd hfirst hstmt
          · exact ih h written hwritten

/-- The labels before statements make an arm with them, and labels without statements wait for the next ones. -/
private theorem armsFrom_labelled {reduce : Bool} {labels : List CaseLabel} {label : CaseLabel}
    {body : List (Written TracedCode)} {rest : List (SwitchItem TracedCode)} {arms : List (Arm TracedCode)}
    (h : (armsFrom reduce labels (.labelled label body :: rest)).result = .ok arms) :
    (body = [] ∧ (armsFrom reduce (labels ++ [label]) rest).result = .ok arms) ∨
      ∃ others, (armsFrom reduce [] rest).result = .ok others ∧
        (∀ written ∈ body.dropLast, written.stmt.isBreak = false) ∧
        arms = ⟨labels ++ [label], body, (body.getLast?.map (·.stmt)).any isTerminal⟩ :: others := by
  cases body with
  | nil => exact Or.inl ⟨rfl, h⟩
  | cons first others =>
    simp only [armsFrom, bind_eq_ok, pure_result, Except.ok.injEq] at h
    obtain ⟨text, -, _, hcheck, arms, harms, rfl⟩ := h
    exact Or.inr ⟨arms, harms, checkBreaks_ok hcheck, rfl⟩

/-- The arms of these items, after any labels, have these parts. -/
private def Grouped (options : UnitOptions) (context : Context) (parts : List Part)
    (items : List (SwitchItem TracedCode)) : Prop :=
  ∀ labels arms, (armsFrom options.reduceParentheses labels items).result = .ok arms →
    labels.map .label ++ parts = arms.flatMap Arm.parts ∧ ∀ arm ∈ arms, arm.Valid options context

private theorem grouped_labelled {parts : List Part} {items : List (SwitchItem TracedCode)}
    (h : Grouped options context parts items) (label : CaseLabel) (stmts : List Node) :
    Grouped options context (.label label :: (flatten stmts).map .stmt ++ parts)
      (.labelled label (writeFlat options context stmts) :: items) := by
  intro labels arms harms
  rcases armsFrom_labelled harms with ⟨hbody, harms⟩ | ⟨others, hothers, hbreaks, rfl⟩
  · have hstmts : flatten stmts = [] := by simpa [writeFlat_eq] using hbody
    obtain ⟨hparts, hvalid⟩ := h _ _ harms
    exact ⟨by simpa [hstmts] using hparts, hvalid⟩
  · obtain ⟨hparts, hvalid⟩ := h _ _ hothers
    rw [List.map_nil, List.nil_append] at hparts
    refine ⟨?_, ?_⟩
    · rw [List.flatMap_cons, ← hparts]
      simp [Arm.parts, writeFlat_eq, written]
    · intro arm harm
      rcases List.mem_cons.mp harm with rfl | harm
      · refine ⟨by simp, rfl, hbreaks, ?_⟩
        intro item hitem
        rw [writeFlat_eq] at hitem
        obtain ⟨stmt, -, rfl⟩ := List.mem_map.mp hitem
        rfl
      · exact hvalid arm harm

private theorem grouped_writeItems (items : List Node) :
    Grouped options context (partsOf items) (writeItems options context items) := by
  induction items using partsOf.induct with
  | case1 =>
    intro labels arms harms
    cases harms
    cases labels with
    | nil => simp [partsOf]
    | cons label others =>
      -- labels at the end make an arm without statements
      refine ⟨by simp [partsOf, Arm.parts], ?_⟩
      intro arm harm
      obtain rfl := List.mem_singleton.mp harm
      exact ⟨by simp, rfl, by simp, by simp⟩
  | case2 label stmts rest ih => exact grouped_labelled ih _ stmts
  | case3 stmts rest ih => exact grouped_labelled ih _ stmts
  | case4 stmt rest hcase hdefault ih =>
    -- a statement without a label is not accepted
    intro labels arms harms
    rw [writeItems] at harms
    · cases harms
    · exact hcase
    · exact hdefault

/-- The arms are the parts of the switch, grouped. -/
theorem armsOf_parts {items : List Node} {arms : List (Arm TracedCode)}
    (h : (armsOf options.reduceParentheses (writeItems options context items)).result = .ok arms) :
    partsOf items = arms.flatMap Arm.parts ∧ ∀ arm ∈ arms, arm.Valid options context :=
  grouped_writeItems items [] arms h

/-! ### Running on -/

/-- The statements that run from the first arm, a `break` at their end included. -/
def falling : List (Arm TracedCode) → List (Written TracedCode)
  | [] => []
  | arm :: rest => if arm.terminal then arm.body else arm.body ++ falling rest

/-- The labels of arms, each with the statements that run from it. -/
def entries : List (Arm TracedCode) → List (CaseLabel × List (Written TracedCode))
  | [] => []
  | arm :: rest => arm.labels.map (·, falling (arm :: rest)) ++ entries rest

def withoutBreaks (stmts : List (Written TracedCode)) : List Node := (stmts.map (·.stmt)).filter (!·.isBreak)

theorem withoutBreaks_append (first second : List (Written TracedCode)) :
    withoutBreaks (first ++ second) = withoutBreaks first ++ withoutBreaks second := by
  simp [withoutBreaks]

private theorem stmtsFrom_labels (labels : List CaseLabel) (parts : List Part) :
    stmtsFrom (labels.map .label ++ parts) = stmtsFrom parts := by
  induction labels with
  | nil => rfl
  | cons label rest ih => simpa [stmtsFrom] using ih

private theorem isBreak_of_not_terminal {stmt : Node} (h : isTerminal stmt = false) : stmt.isBreak = false := by
  cases stmt <;> first | rfl | cases h

private theorem stmtsFrom_body {body : List (Written TracedCode)} {parts : List Part}
    (hbreaks : ∀ written ∈ body.dropLast, written.stmt.isBreak = false) (hparts : endsArm parts = true) :
    stmtsFrom (body.map (fun written => .stmt written.stmt) ++ parts) =
      if (body.getLast?.map (·.stmt)).any isTerminal then withoutBreaks body
      else withoutBreaks body ++ stmtsFrom parts := by
  induction body with
  | nil => rfl
  | cons first rest ih =>
    -- only the last statement of a body can end the arm
    cases rest with
    | nil =>
      cases hterminal : isTerminal first.stmt with
      | true => cases hbreak : first.stmt.isBreak <;> simp [stmtsFrom, withoutBreaks, hterminal, hparts, hbreak]
      | false => simp [stmtsFrom, withoutBreaks, hterminal, isBreak_of_not_terminal hterminal]
    | cons second others =>
      have hfirst : first.stmt.isBreak = false := hbreaks first (by simp)
      have hrest := ih fun written hwritten => hbreaks written (by simp [hwritten])
      have hstep : withoutBreaks (first :: second :: others) = first.stmt :: withoutBreaks (second :: others) := by
        simp [withoutBreaks, hfirst]
      have hmore : stmtsFrom ((first :: second :: others).map (fun written => .stmt written.stmt) ++ parts) =
          first.stmt :: stmtsFrom ((second :: others).map (fun written => .stmt written.stmt) ++ parts) := by
        simp [stmtsFrom, endsArm]
      rw [hmore, hrest, hstep, List.getLast?_cons_cons]
      split <;> rfl

private theorem endsArm_parts {arms : List (Arm TracedCode)} (h : ∀ arm ∈ arms, arm.Valid options context) :
    endsArm (arms.flatMap Arm.parts) = true := by
  cases arms with
  | nil => rfl
  | cons arm rest =>
    obtain ⟨label, others, hlabels⟩ := List.exists_cons_of_ne_nil (h arm (List.mem_cons_self ..)).labels_ne
    simp [Arm.parts, hlabels, endsArm]

/-- From the labels of an arm run the statements of this arm and of the next ones up to a terminal arm. -/
theorem stmtsFrom_parts {arms : List (Arm TracedCode)} (h : ∀ arm ∈ arms, arm.Valid options context) :
    stmtsFrom (arms.flatMap Arm.parts) = withoutBreaks (falling arms) := by
  induction arms with
  | nil => rfl
  | cons arm rest ih =>
    obtain ⟨harm, hrest⟩ := List.forall_mem_cons.mp h
    rw [List.flatMap_cons, Arm.parts, List.append_assoc, stmtsFrom_labels,
      stmtsFrom_body harm.breaks (endsArm_parts hrest), ← harm.terminal_eq, ih hrest, falling]
    split
    · rfl
    · rw [withoutBreaks_append]

/-! ### Entries -/

private theorem afterLabel_labels (p : CaseLabel → Bool) (labels : List CaseLabel) (parts : List Part) :
    (afterLabel p (labels.map .label ++ parts)).map stmtsFrom =
      if labels.any p then some (stmtsFrom parts) else (afterLabel p parts).map stmtsFrom := by
  induction labels with
  | nil => rfl
  | cons label rest ih =>
    rw [List.map_cons, List.cons_append, afterLabel]
    cases h : p label with
    | true => simp [h, stmtsFrom_labels]
    | false => simpa [h] using ih

private theorem afterLabel_body (p : CaseLabel → Bool) (body : List (Written TracedCode)) (parts : List Part) :
    afterLabel p (body.map (fun written => .stmt written.stmt) ++ parts) = afterLabel p parts := by
  induction body with
  | nil => rfl
  | cons first rest ih => simpa [afterLabel] using ih

theorem find?_labels (p : CaseLabel → Bool) (labels : List CaseLabel) (stmts : List (Written TracedCode))
    (others : List (CaseLabel × List (Written TracedCode))) :
    ((labels.map (·, stmts) ++ others).find? fun entry => p entry.1).map Prod.snd =
      if labels.any p then some stmts else (others.find? fun entry => p entry.1).map Prod.snd := by
  induction labels with
  | nil => rfl
  | cons label rest ih =>
    cases h : p label with
    | true => simp [h]
    | false => simpa [h] using ih

/-- The statements that run from the first label with a property are those of its entry. -/
theorem afterLabel_parts {arms : List (Arm TracedCode)} (h : ∀ arm ∈ arms, arm.Valid options context)
    (p : CaseLabel → Bool) :
    (afterLabel p (arms.flatMap Arm.parts)).map stmtsFrom =
      (((entries arms).find? fun entry => p entry.1).map Prod.snd).map withoutBreaks := by
  induction arms with
  | nil => rfl
  | cons arm rest ih =>
    obtain ⟨-, hrest⟩ := List.forall_mem_cons.mp h
    rw [entries, find?_labels, List.flatMap_cons, Arm.parts, List.append_assoc, afterLabel_labels, afterLabel_body,
      ih hrest]
    split
    · rw [Option.map_some, ← stmtsFrom_parts h, List.flatMap_cons, Arm.parts, List.append_assoc, stmtsFrom_labels]
    · rfl

/-- Where breaks are left out, the code of an arm is the code of its other statements. -/
theorem sequence_eq {body : List (Written TracedCode)} (hskip : context.skip.breaks = true)
    (h : ∀ written ∈ body, written.code = writeStmt options context false written.stmt) :
    sequence body = writeStmts options context (withoutBreaks body) := by
  induction body with
  | nil => rfl
  | cons first rest ih =>
    have hrest := ih fun written hwritten => h written (List.mem_cons_of_mem _ hwritten)
    rw [sequence, hrest, h first (List.mem_cons_self ..)]
    cases hbreak : first.stmt.isBreak with
    | true =>
      -- a `break` has no code
      have hstmt : first.stmt = .breakJump := by
        cases heq : first.stmt <;> first | rfl | (rw [heq] at hbreak; cases hbreak)
      have hcode : writeStmt options context false .breakJump = pure [] := by
        simp [writeStmt, writeSimple, hskip, elseCode]
      have hkept : withoutBreaks (first :: rest) = withoutBreaks rest := by simp [withoutBreaks, hbreak]
      rw [hstmt, hcode, hkept]
      simp
    | false =>
      have hkept : withoutBreaks (first :: rest) = first.stmt :: withoutBreaks rest := by
        simp [withoutBreaks, hbreak]
      rw [hkept, writeStmts]

private theorem exists_arm_of_mem_falling {arms : List (Arm TracedCode)} {written : Written TracedCode}
    (h : written ∈ falling arms) :
    ∃ arm ∈ arms, written ∈ arm.body := by
  induction arms with
  | nil => cases h
  | cons arm rest ih =>
    rw [falling] at h
    split at h
    · exact ⟨arm, List.mem_cons_self .., h⟩
    · rcases List.mem_append.mp h with h | h
      · exact ⟨arm, List.mem_cons_self .., h⟩
      · obtain ⟨other, hother, hbody⟩ := ih h
        exact ⟨other, List.mem_cons_of_mem arm hother, hbody⟩

/-- The statements of an entry are statements of the arms. -/
theorem exists_arm_of_mem_entries {arms : List (Arm TracedCode)} {entry : CaseLabel × List (Written TracedCode)}
    (h : entry ∈ entries arms) {written : Written TracedCode} (hwritten : written ∈ entry.2) :
    ∃ arm ∈ arms, written ∈ arm.body := by
  induction arms with
  | nil => cases h
  | cons arm rest ih =>
    rw [entries, List.mem_append, List.mem_map] at h
    rcases h with ⟨label, -, rfl⟩ | h
    · exact exists_arm_of_mem_falling hwritten
    · obtain ⟨other, hother, hbody⟩ := ih h
      exact ⟨other, List.mem_cons_of_mem arm hother, hbody⟩

theorem code_entries {arms : List (Arm TracedCode)} (h : ∀ arm ∈ arms, arm.Valid options context) :
    ∀ entry ∈ entries arms, ∀ written ∈ entry.2, written.code = writeStmt options context false written.stmt := by
  intro entry hentry written hwritten
  obtain ⟨arm, harm, hbody⟩ := exists_arm_of_mem_entries hentry hwritten
  exact (h arm harm).code_eq written hbody

end StubGen.CUnit
