import StubGen.Proofs.Loop.Test

/-!
# Splitting tests

What `splitTest` gives stands for the test: running the prefix steps, evaluating what is left and running the postfix
steps is evaluating the test, if the test uses the variables of its steps nowhere else (`splitsAround_splitTest`).
Without postfix steps nothing is left to run after the test (`splitsTo_splitTest`).
-/

namespace StubGen.CUnit

open Traced

/-- A test whose steps are steps of variables that it uses only once, without calls and assignments. -/
structure SingleSteps (test : Node) : Prop where
  single : ∀ op operand, .unary op operand ∈ test.subexprs → Node.isStepOp op = true →
    ∃ name, operand = .ident name ∧ test.subexprs.countP (·.isVariable name) = 1
  plain : ∀ sub ∈ test.subexprs, sub.changesState = true → sub.isStep = true

/-- How a machine evaluates postfix steps: the value of one is the old value of its variable.  Steps of different
variables do not matter to each other. -/
structure Machine.LateSteps {σ V : Type} (machine : Machine σ V) : Prop where
  eval_postfix : ∀ {op : String} (name : String) (state : σ), op ∈ ["p++", "p--"] →
    machine.eval (.unary op (.ident name)) state =
      ((machine.eval (.ident name) state).1, machine.step ⟨op, .ident name⟩ state)
  step_comm : ∀ {first second : String} (op op' : String) (state : σ), first ≠ second →
    machine.step ⟨op, .ident first⟩ (machine.step ⟨op', .ident second⟩ state) =
      machine.step ⟨op', .ident second⟩ (machine.step ⟨op, .ident first⟩ state)

/-- The postfix steps of a test. -/
def SplitTest.late (split : SplitTest) : List Step := split.after.filter Step.isPostfix

namespace Machine

variable {σ V : Type} (machine : Machine σ V)

/-- Running the prefix steps, evaluating what is left of a test and running the postfix steps is evaluating the
test. -/
structure SplitsAround (test : Node) (split : SplitTest) : Prop where
  eval_eq : ∀ state, machine.eval test state =
    ((machine.eval split.cond (machine.steps split.before state)).1,
      machine.steps split.late (machine.steps split.before state))
  still : ∀ state, (machine.eval split.cond state).2 = state
  after_eq : ∀ state,
    machine.steps split.after state = machine.steps split.late (machine.steps split.before state)
  comm : ∀ state, machine.steps split.before (machine.steps split.late state) =
    machine.steps split.late (machine.steps split.before state)

theorem steps_append (first second : List Step) (state : σ) :
    machine.steps (first ++ second) state = machine.steps second (machine.steps first state) := List.foldl_append

theorem step_steps_comm {step : Step} {steps : List Step}
    (h : ∀ other ∈ steps, ∀ state,
      machine.step step (machine.step other state) = machine.step other (machine.step step state)) (state : σ) :
    machine.step step (machine.steps steps state) = machine.steps steps (machine.step step state) := by
  induction steps generalizing state with
  | nil => rfl
  | cons other rest ih =>
    have hrest := ih (fun other hother => h other (List.mem_cons_of_mem _ hother)) (machine.step other state)
    calc machine.step step (machine.steps rest (machine.step other state))
      _ = machine.steps rest (machine.step step (machine.step other state)) := hrest
      _ = machine.steps rest (machine.step other (machine.step step state)) := by
        rw [h other (List.mem_cons_self ..)]

/-- Steps that do not matter to each other can change places. -/
theorem steps_comm {first second : List Step}
    (h : ∀ step ∈ first, ∀ other ∈ second, ∀ state,
      machine.step step (machine.step other state) = machine.step other (machine.step step state)) (state : σ) :
    machine.steps first (machine.steps second state) = machine.steps second (machine.steps first state) := by
  induction first generalizing state with
  | nil => rfl
  | cons step rest ih =>
    have hstep := machine.step_steps_comm (h step (List.mem_cons_self ..)) state
    have hrest := ih (fun step hmem => h step (List.mem_cons_of_mem _ hmem)) (machine.step step state)
    calc machine.steps rest (machine.step step (machine.steps second state))
      _ = machine.steps rest (machine.steps second (machine.step step state)) := by rw [hstep]
      _ = machine.steps second (machine.steps rest (machine.step step state)) := hrest

end Machine

/-! ### Operands -/

/-- The steps are steps of variables that the operand uses, and that the test uses only once. -/
def StepsIn (test node : Node) (steps : List Step) : Prop :=
  ∀ step ∈ steps, ∃ name, step.operand = .ident name ∧ (∃ sub ∈ node.subexprs, sub.isVariable name = true) ∧
    test.subexprs.countP (·.isVariable name) = 1

section Operands

variable {σ V : Type} {machine : Machine σ V} (operators : machine.Operators) {reduce : Bool} {text : String}

theorem late_ofStep (step : Step) : (SplitTest.ofStep step).late = if step.isPostfix then [step] else [] := by
  rw [SplitTest.late, SplitTest.ofStep]
  cases hform : step.isPostfix <;> simp [hform]

theorem late_subset (split : SplitTest) : split.late ⊆ split.after := List.filter_sublist.subset

theorem late_binary (op : String) (left right : SplitTest) :
    (SplitTest.binary op left right).late = left.late ++ right.late := List.filter_append ..

private theorem isStepOp_cases {op : String} (h : Node.isStepOp op = true) :
    op ∈ ["++", "--"] ∧ (∀ operand, Step.isPostfix ⟨op, operand⟩ = false) ∨
      op ∈ ["p++", "p--"] ∧ ∀ operand, Step.isPostfix ⟨op, operand⟩ = true := by
  have hform : ∀ operand, Step.isPostfix ⟨op, operand⟩ = !decide (op ∈ ["++", "--"]) :=
    fun operand => Step.isPostfix_eq h
  by_cases hmem : op ∈ ["++", "--"]
  · exact Or.inl ⟨hmem, fun operand => by rw [hform, decide_eq_true hmem]; rfl⟩
  · refine Or.inr ⟨?_, fun operand => by rw [hform, decide_eq_false hmem]; rfl⟩
    rw [Node.isStepOp, decide_eq_true_eq] at h
    simp_all

include operators

private theorem splitsAround_pure {expr : Node} (h : Effectless expr) : machine.SplitsAround expr (.pure expr) :=
  ⟨fun state => Prod.ext rfl (operators.eval_effectless state h), fun state => operators.eval_effectless state h,
    fun _ => rfl, fun _ => rfl⟩

private theorem splitsAround_step {op : String} (hop : Node.isStepOp op = true) (name : String)
    (hlaw : (SplitTest.ofStep ⟨op, .ident name⟩).late ≠ [] → machine.LateSteps) :
    machine.SplitsAround (.unary op (.ident name)) (.ofStep ⟨op, .ident name⟩) := by
  have hstill : ∀ state, (machine.eval (.ident name) state).2 = state :=
    fun state => operators.eval_effectless state (effectless_ident name)
  rcases isStepOp_cases hop with ⟨hmem, hprefixed⟩ | ⟨hmem, hform⟩
  · have hlate : (SplitTest.ofStep ⟨op, .ident name⟩).late = [] := by rw [late_ofStep, hprefixed]; rfl
    refine ⟨fun state => ?_, hstill, ?_, ?_⟩
    · rw [operators.eval_step name state hmem, hlate, SplitTest.ofStep, hprefixed]
      rfl
    all_goals
      intro state
      rw [hlate, SplitTest.ofStep, hprefixed]
      rfl
  · have hlate : (SplitTest.ofStep ⟨op, .ident name⟩).late = [⟨op, .ident name⟩] := by rw [late_ofStep, hform]; rfl
    refine ⟨fun state => ?_, hstill, ?_, ?_⟩
    · have hlaw : machine.LateSteps := hlaw (by rw [hlate]; simp)
      rw [hlaw.eval_postfix name state hmem, hlate, SplitTest.ofStep, hform]
      rfl
    all_goals
      intro state
      rw [hlate, SplitTest.ofStep, hform]
      rfl

private theorem splitsAround_operand {test node : Node} {split : SplitTest} (hsingle : SingleSteps test)
    (hlaw : split.late ≠ [] → machine.LateSteps) (hsub : node.subexprs ⊆ test.subexprs)
    (h : splitOperand node = .ok split) (htext : (renderExpr reduce split.cond).result = .ok text) :
    machine.SplitsAround node split := by
  rcases splitOperand_ok h with ⟨-, rfl⟩ | ⟨op, operand, rfl, hop, rfl⟩
  · exact splitsAround_pure operators (effectless_of_rendered hsingle.plain hsub htext)
  · have hmem : Node.unary op operand ∈ test.subexprs := hsub (by rw [Node.subexprs]; exact List.mem_cons_self ..)
    obtain ⟨name, rfl, -⟩ := hsingle.single op operand hmem hop
    exact splitsAround_step operators hop name hlaw

omit operators in
private theorem stepsIn_operand {test node : Node} {split : SplitTest} (hsingle : SingleSteps test)
    (hsub : node.subexprs ⊆ test.subexprs) (h : splitOperand node = .ok split) :
    StepsIn test node split.after ∧ split.before ⊆ split.after := by
  rcases splitOperand_ok h with ⟨-, rfl⟩ | ⟨op, operand, rfl, hop, rfl⟩
  · exact ⟨by simp [StepsIn, SplitTest.pure], by simp [SplitTest.pure]⟩
  · have hmem : Node.unary op operand ∈ test.subexprs := hsub (by rw [Node.subexprs]; exact List.mem_cons_self ..)
    obtain ⟨name, rfl, hcount⟩ := hsingle.single op operand hmem hop
    constructor
    · intro step hstep
      rw [SplitTest.ofStep, List.mem_singleton] at hstep
      subst hstep
      exact ⟨name, rfl, ⟨.ident name, by simp [Node.subexprs], by simp [Node.isVariable]⟩, hcount⟩
    · rw [SplitTest.ofStep]
      split <;> simp

omit operators in
private theorem subexprs_left (op : String) (left right : Node) :
    left.subexprs ⊆ (Node.binary op left right).subexprs := by
  rw [Node.subexprs]
  exact fun sub hsub => List.mem_cons_of_mem _ (List.mem_append_left _ hsub)

omit operators in
private theorem subexprs_right (op : String) (left right : Node) :
    right.subexprs ⊆ (Node.binary op left right).subexprs := by
  rw [Node.subexprs]
  exact fun sub hsub => List.mem_cons_of_mem _ (List.mem_append_right _ hsub)

omit operators in
private theorem countP_binary (op name : String) (left right : Node) :
    (Node.binary op left right).subexprs.countP (·.isVariable name) =
      left.subexprs.countP (·.isVariable name) + right.subexprs.countP (·.isVariable name) := by
  rw [Node.subexprs, List.countP_cons_of_neg (by simp [Node.isVariable]), List.countP_append]

omit operators in
/-- A variable that is used once is used in one operand only. -/
private theorem unused_of_count {name : String} {first second : Node}
    (hcount : first.subexprs.countP (·.isVariable name) + second.subexprs.countP (·.isVariable name) = 1)
    (hused : ∃ sub ∈ second.subexprs, sub.isVariable name = true) :
    ∀ sub ∈ first.subexprs, sub.isVariable name = false := by
  have hpos : 0 < second.subexprs.countP (·.isVariable name) := List.countP_pos_iff.mpr hused
  have hzero : first.subexprs.countP (·.isVariable name) = 0 := by omega
  intro sub hsub
  simpa using List.countP_eq_zero.mp hzero sub hsub

/-- The steps of one operand do not change the value of another one. -/
private theorem eval_steps {expr : Node} {steps : List Step} (heffectless : Effectless expr)
    (h : ∀ step ∈ steps, ∃ name, step.operand = .ident name ∧ ∀ sub ∈ expr.subexprs, sub.isVariable name = false)
    (state : σ) : (machine.eval expr (machine.steps steps state)).1 = (machine.eval expr state).1 := by
  induction steps generalizing state with
  | nil => rfl
  | cons step rest ih =>
    obtain ⟨name, hname, hunused⟩ := h step (List.mem_cons_self ..)
    obtain ⟨op, operand⟩ := step
    subst hname
    calc (machine.eval expr (machine.steps rest (machine.step ⟨op, .ident name⟩ state))).1
      _ = (machine.eval expr (machine.step ⟨op, .ident name⟩ state)).1 :=
        ih (fun step hstep => h step (List.mem_cons_of_mem _ hstep)) _
      _ = (machine.eval expr state).1 := operators.eval_unused op state heffectless hunused

omit operators in
/-- The steps of the operands do not matter to each other. -/
private theorem operandSteps_comm {op : String} {left right : Node} {first second : List Step}
    (hlaw : first ≠ [] → second ≠ [] → machine.LateSteps)
    (hfirst : StepsIn (.binary op left right) left first) (hsecond : StepsIn (.binary op left right) right second)
    (state : σ) :
    machine.steps first (machine.steps second state) = machine.steps second (machine.steps first state) := by
  refine machine.steps_comm (fun step hstep other hother state => ?_) state
  obtain ⟨name, hname, ⟨sub, hsub, hvariable⟩, -⟩ := hfirst step hstep
  obtain ⟨name', hname', hused, hcount⟩ := hsecond other hother
  obtain ⟨op, operand⟩ := step
  obtain ⟨op', operand'⟩ := other
  subst hname hname'
  refine (hlaw (List.ne_nil_of_mem hstep) (List.ne_nil_of_mem hother)).step_comm op op' state ?_
  rintro rfl
  rw [countP_binary] at hcount
  rw [unused_of_count hcount hused sub hsub] at hvariable
  cases hvariable

private theorem eval_first {op : String} {left right cond : Node} {steps : List Step}
    (h : StepsIn (.binary op left right) right steps) (hcond : cond.subexprs ⊆ left.subexprs)
    (heffectless : Effectless cond) (state : σ) :
    (machine.eval cond (machine.steps steps state)).1 = (machine.eval cond state).1 := by
  refine eval_steps operators heffectless (fun step hstep => ?_) state
  obtain ⟨name, hname, hused, hcount⟩ := h step hstep
  rw [countP_binary] at hcount
  exact ⟨name, hname, fun sub hsub => unused_of_count hcount hused sub (hcond hsub)⟩

private theorem eval_second {op : String} {left right cond : Node} {steps : List Step}
    (h : StepsIn (.binary op left right) left steps) (hcond : cond.subexprs ⊆ right.subexprs)
    (heffectless : Effectless cond) (state : σ) :
    (machine.eval cond (machine.steps steps state)).1 = (machine.eval cond state).1 := by
  refine eval_steps operators heffectless (fun step hstep => ?_) state
  obtain ⟨name, hname, hused, hcount⟩ := h step hstep
  rw [countP_binary, Nat.add_comm] at hcount
  exact ⟨name, hname, fun sub hsub => unused_of_count hcount hused sub (hcond hsub)⟩

/-- An operation of operands whose steps do not matter to each other. -/
private theorem splitsAround_sides {op : String} {left right : Node} {l r : SplitTest}
    (hl : machine.SplitsAround left l) (hr : machine.SplitsAround right r)
    (hlazy : op ∈ ["&&", "||"] → r = .pure right)
    (hswap : ∀ state,
      machine.steps l.late (machine.steps r.before state) = machine.steps r.before (machine.steps l.late state))
    (hcross : ∀ state,
      machine.steps l.before (machine.steps r.late state) = machine.steps r.late (machine.steps l.before state))
    (hleft : ∀ state, (machine.eval l.cond (machine.steps r.before state)).1 = (machine.eval l.cond state).1)
    (hright : ∀ state, (machine.eval r.cond (machine.steps l.late state)).1 = (machine.eval r.cond state).1) :
    machine.SplitsAround (.binary op left right) (.binary op l r) := by
  have hbefore : ∀ state, machine.steps (SplitTest.binary op l r).before state =
      machine.steps r.before (machine.steps l.before state) := machine.steps_append l.before r.before
  have hlate : ∀ state, machine.steps (SplitTest.binary op l r).late state =
      machine.steps r.late (machine.steps l.late state) := by
    intro state
    rw [late_binary, machine.steps_append]
  have hcond : (SplitTest.binary op l r).cond = .binary op l.cond r.cond := rfl
  have hleftValue : ∀ state, ∃ value, machine.eval l.cond state = (value, state) :=
    fun state => ⟨_, Prod.ext rfl (hl.still state)⟩
  have hrightValue : ∀ state, ∃ value, machine.eval r.cond state = (value, state) :=
    fun state => ⟨_, Prod.ext rfl (hr.still state)⟩
  have hrightSide : ∀ state, machine.eval right (machine.steps l.late (machine.steps l.before state)) =
      ((machine.eval r.cond (machine.steps r.before (machine.steps l.before state))).1,
        machine.steps r.late (machine.steps l.late (machine.steps r.before (machine.steps l.before state)))) := by
    intro state
    rw [hr.eval_eq, ← hswap, hright]
  refine ⟨fun state => ?_, fun state => ?_, fun state => ?_, fun state => ?_⟩
  · have hside := hrightSide state
    have hsame := hleft (machine.steps l.before state)
    rw [hbefore, hlate, hcond]
    obtain ⟨a, ha⟩ := hleftValue (machine.steps r.before (machine.steps l.before state))
    obtain ⟨b, hb⟩ := hrightValue (machine.steps r.before (machine.steps l.before state))
    rw [ha] at hsame
    rw [hb] at hside
    by_cases hop : op ∈ ["&&", "||"]
    · -- the right operand has no steps
      have hnothing : ∀ state, machine.steps r.before state = state ∧ machine.steps r.late state = state := by
        rw [hlazy hop]
        exact fun _ => ⟨rfl, rfl⟩
      simp only [(hnothing _).1, (hnothing _).2] at ha hb hside ⊢
      simp only [operators.eval_lazy _ _ _ hop, hl.eval_eq state, ha, hb, hside]
      split <;> rfl
    · simp only [operators.eval_strict _ _ _ hop, hl.eval_eq state, ha, hb, hside, ← hsame]
  · obtain ⟨a, ha⟩ := hleftValue state
    obtain ⟨b, hb⟩ := hrightValue state
    rw [hcond]
    by_cases hop : op ∈ ["&&", "||"]
    · simp only [operators.eval_lazy _ _ _ hop, ha, hb]
      split <;> rfl
    · simp only [operators.eval_strict _ _ _ hop, ha, hb]
  · rw [hbefore, hlate, SplitTest.binary, machine.steps_append, hl.after_eq, hr.after_eq, hswap]
  · rw [hbefore, hlate, hbefore, hlate, hcross, hl.comm, hr.comm, hswap]

private theorem splitsAround_binary {op : String} {left right : Node} {l r : SplitTest}
    (hsingle : SingleSteps (.binary op left right)) (hlaw : (SplitTest.binary op l r).late ≠ [] → machine.LateSteps)
    (hlazy : op ∈ ["&&", "||"] → right.hasSteps = false) (hl : splitOperand left = .ok l)
    (hr : splitOperand right = .ok r)
    (htext : (renderExpr reduce (.binary op l.cond r.cond)).result = .ok text) :
    machine.SplitsAround (.binary op left right) (.binary op l r) := by
  obtain ⟨_, ltext, rtext, -, hltext, hrtext, -⟩ := renderExpr_binary.mp htext
  have hleft := subexprs_left op left right
  have hright := subexprs_right op left right
  have hlawl : l.late ≠ [] → machine.LateSteps := fun hne => hlaw (by simp [late_binary, hne])
  have hlawr : r.late ≠ [] → machine.LateSteps := fun hne => hlaw (by simp [late_binary, hne])
  obtain ⟨hinl, hbeforel⟩ := stepsIn_operand hsingle hleft hl
  obtain ⟨hinr, hbeforer⟩ := stepsIn_operand hsingle hright hr
  have hlatel : StepsIn (.binary op left right) left l.late := fun step hstep => hinl step (late_subset l hstep)
  have hlater : StepsIn (.binary op left right) right r.late := fun step hstep => hinr step (late_subset r hstep)
  have hfirstl : StepsIn (.binary op left right) left l.before := fun step hstep => hinl step (hbeforel hstep)
  have hfirstr : StepsIn (.binary op left right) right r.before := fun step hstep => hinr step (hbeforer hstep)
  have heffectlessl := effectless_of_rendered hsingle.plain (fun _ hsub => hleft (subexprs_split hl hsub)) hltext
  have heffectlessr := effectless_of_rendered hsingle.plain (fun _ hsub => hright (subexprs_split hr hsub)) hrtext
  refine splitsAround_sides operators (splitsAround_operand operators hsingle hlawl hleft hl hltext)
    (splitsAround_operand operators hsingle hlawr hright hr hrtext) (fun hop => ?_)
    (operandSteps_comm (fun hne _ => hlawl hne) hlatel hfirstr)
    (operandSteps_comm (fun _ hne => hlawr hne) hfirstl hlater)
    (eval_first operators hfirstr (subexprs_split hl) heffectlessl)
    (eval_second operators hlatel (subexprs_split hr) heffectlessr)
  rcases splitOperand_ok hr with ⟨-, rfl⟩ | ⟨op', operand, rfl, hstep, rfl⟩
  · rfl
  · have hnone := hlazy hop
    simp [Node.hasSteps, hstep] at hnone

/-- What `splitTest` gives is the steps of the test and what is left of it. -/
theorem splitsAround_splitTest {test : Node} {split : SplitTest} (hsteps : test.hasSteps = true)
    (hsingle : SingleSteps test) (hlaw : split.late ≠ [] → machine.LateSteps) (h : splitTest test = .ok split)
    (htext : (renderExpr reduce split.cond).result = .ok text) : machine.SplitsAround test split := by
  rcases splitTest_ok h with ⟨hnone, -⟩ | ⟨-, hoperand | ⟨op, left, right, l, r, rfl, hlazy, hl, hr, rfl⟩⟩
  · rw [hnone] at hsteps
    cases hsteps
  · exact splitsAround_operand operators hsingle hlaw (List.Subset.refl _) hoperand htext
  · exact splitsAround_binary operators hsingle hlaw hlazy hl hr htext

omit operators in
/-- An operand with prefix steps only has no postfix steps, and all its steps run before it. -/
private theorem late_operand {test node : Node} {split : SplitTest} (hsteady : SteadyTest test)
    (hsub : node.subexprs ⊆ test.subexprs) (h : splitOperand node = .ok split) :
    split.late = [] ∧ split.after = split.before := by
  rcases splitOperand_ok h with ⟨-, rfl⟩ | ⟨op, operand, rfl, hop, rfl⟩
  · exact ⟨rfl, rfl⟩
  · have hmem : Node.unary op operand ∈ test.subexprs := hsub (by rw [Node.subexprs]; exact List.mem_cons_self ..)
    obtain ⟨hprefixed, -⟩ := hsteady.prefixed op operand hmem hop
    have hops : ∀ op ∈ ["++", "--"], op.startsWith "p" = false := by decide +kernel
    have hform : Step.isPostfix ⟨op, operand⟩ = false := hops op hprefixed
    rw [late_ofStep, SplitTest.ofStep, hform]
    exact ⟨rfl, rfl⟩

omit operators in
private theorem late_steady {test : Node} {split : SplitTest} (hsteady : SteadyTest test)
    (h : splitTest test = .ok split) : split.late = [] ∧ split.after = split.before := by
  rcases splitTest_ok h with ⟨-, rfl⟩ | ⟨-, hoperand | ⟨op, left, right, l, r, rfl, -, hl, hr, rfl⟩⟩
  · exact ⟨rfl, rfl⟩
  · exact late_operand hsteady (List.Subset.refl _) hoperand
  · obtain ⟨hlatel, hafterl⟩ := late_operand hsteady (subexprs_left op left right) hl
    obtain ⟨hlater, hafterr⟩ := late_operand hsteady (subexprs_right op left right) hr
    rw [late_binary, hlatel, hlater, SplitTest.binary, hafterl, hafterr]
    exact ⟨rfl, rfl⟩

/-- Without postfix steps nothing is left to run after the test. -/
theorem splitsTo_splitTest {test : Node} {split : SplitTest} (hsteps : test.hasSteps = true) (hsteady : SteadyTest test)
    (h : splitTest test = .ok split) (htext : (renderExpr reduce split.cond).result = .ok text) :
    machine.SplitsTo test split := by
  obtain ⟨hlate, hafter⟩ := late_steady hsteady h
  have hsingle : SingleSteps test :=
    ⟨fun op operand hmem hop => (hsteady.prefixed op operand hmem hop).2, hsteady.plain⟩
  have hsplits := splitsAround_splitTest operators hsteps hsingle (fun hne => absurd hlate hne) h htext
  refine ⟨fun state => ?_, hsplits.still, hafter⟩
  rw [hsplits.eval_eq, hlate]
  rfl

end Operands

end StubGen.CUnit
