import StubGen.CUnit.Effect

/-!
# The steps of a test

`splitTest` takes all steps out of a test, or fails.  `splitTest_eq_ok_iff` says for which tests it succeeds and what
it gives.

* `Node.steps` lists the steps of an expression from left to right.
* `Node.withoutSteps` is the expression with the operand of each step in the place of the step.
* `Splittable` holds of the tests with steps on the outside only, where they can be taken out.

All three look where `Node.hasSteps` looks.
-/

namespace StubGen.CUnit

namespace Node

mutual

/-- The increments and decrements in an expression, from left to right.  One stands after those in its operand. -/
def steps : Node → List Step
  | unary op operand => operand.steps ++ if isStepOp op then [⟨op, operand⟩] else []
  | assign _ target value => target.steps ++ value.steps
  | binary _ left right => left.steps ++ right.steps
  | ternary cond whenTrue whenFalse => cond.steps ++ whenTrue.steps ++ whenFalse.steps
  | call callee none => callee.steps
  | call callee (some args) => callee.steps ++ args.steps
  | subscript base index => base.steps ++ index.steps
  | member base _ _ => base.steps
  | cast _ operand => operand.steps
  | exprList exprs => stepsOf exprs
  | initList exprs => stepsOf exprs
  | _ => []
termination_by structural expr => expr

/-- The increments and decrements in expressions. -/
def stepsOf : List Node → List Step
  | [] => []
  | expr :: rest => expr.steps ++ stepsOf rest
termination_by structural exprs => exprs

end

mutual

/-- The expression with the operand of each step in the place of the step. -/
def withoutSteps : Node → Node
  | unary op operand => if isStepOp op then operand.withoutSteps else unary op operand.withoutSteps
  | assign op target value => assign op target.withoutSteps value.withoutSteps
  | binary op left right => binary op left.withoutSteps right.withoutSteps
  | ternary cond whenTrue whenFalse => ternary cond.withoutSteps whenTrue.withoutSteps whenFalse.withoutSteps
  | call callee none => call callee.withoutSteps none
  | call callee (some args) => call callee.withoutSteps (some args.withoutSteps)
  | subscript base index => subscript base.withoutSteps index.withoutSteps
  | member base access field => member base.withoutSteps access field
  | cast type operand => cast type operand.withoutSteps
  | exprList exprs => exprList (withoutStepsOf exprs)
  | initList exprs => initList (withoutStepsOf exprs)
  | expr => expr
termination_by structural expr => expr

/-- The expressions with the operands of their steps in the places of the steps. -/
def withoutStepsOf : List Node → List Node
  | [] => []
  | expr :: rest => expr.withoutSteps :: withoutStepsOf rest
termination_by structural exprs => exprs

end

/-- `hasSteps` tells whether there are steps. -/
theorem steps_eq_nil_iff (expr : Node) : expr.steps = [] ↔ expr.hasSteps = false := by
  apply hasSteps.induct (fun expr => expr.steps = [] ↔ expr.hasSteps = false)
    (fun exprs => stepsOf exprs = [] ↔ anyHasSteps exprs = false)
  case case12 =>
    intros
    rw [steps, hasSteps]
    · simp
    all_goals assumption
  case case13 => exact iff_of_true rfl rfl
  case case14 =>
    intro expr rest ih ihrest
    simp [stepsOf, anyHasSteps, ih, ihrest]
  case case1 =>
    intro op operand ih
    cases hop : isStepOp op <;> simp [steps, hasSteps, hop, ih]
  all_goals
    intros
    simp_all [steps, hasSteps, and_assoc]

/-- No step is left. -/
theorem hasSteps_withoutSteps (expr : Node) : expr.withoutSteps.hasSteps = false := by
  apply withoutSteps.induct (fun expr => expr.withoutSteps.hasSteps = false)
    (fun exprs => anyHasSteps (withoutStepsOf exprs) = false)
  case case1 =>
    intro op operand hop ih
    rw [withoutSteps, if_pos hop]
    exact ih
  case case13 =>
    intros
    rw [withoutSteps, hasSteps]
    all_goals assumption
  all_goals
    intros
    simp_all [withoutSteps, withoutStepsOf, hasSteps, anyHasSteps]

/-- What has no steps stays as it is. -/
theorem withoutSteps_of_hasSteps {expr : Node} (h : expr.hasSteps = false) : expr.withoutSteps = expr := by
  revert h
  apply withoutSteps.induct (fun expr => expr.hasSteps = false → expr.withoutSteps = expr)
    (fun exprs => anyHasSteps exprs = false → withoutStepsOf exprs = exprs)
  case case13 =>
    intros
    rw [withoutSteps]
    all_goals assumption
  all_goals
    intros
    simp_all [withoutSteps, withoutStepsOf, hasSteps, anyHasSteps]

end Node

/-- The steps that happen before their value is taken. -/
def Step.isPrefix (step : Step) : Bool := step.op ∈ ["++", "--"]

/-- A step has one of two forms. -/
theorem Step.isPostfix_eq {step : Step} (h : Node.isStepOp step.op = true) : step.isPostfix = !step.isPrefix := by
  have hop : step.op ∈ ["++", "--", "p++", "p--"] := by simpa [Node.isStepOp] using h
  have hforms : ∀ op ∈ ["++", "--", "p++", "p--"], op.startsWith "p" = !decide (op ∈ ["++", "--"]) := by
    decide +kernel
  exact hforms step.op hop

/-- An operand whose steps can be taken out: it has none, or it is a step of an operand without any. -/
inductive SplittableOperand : Node → Prop
  | stepless {node : Node} : node.hasSteps = false → SplittableOperand node
  | step {op : String} {operand : Node} :
      Node.isStepOp op = true → operand.hasSteps = false → SplittableOperand (.unary op operand)

/-- A test whose steps can be taken out: it is such an operand, or a binary operation of two of them.  The right
operand of `&&` and `||` has no steps, since it is not always evaluated. -/
inductive Splittable : Node → Prop
  | operand {test : Node} : SplittableOperand test → Splittable test
  | binary {op : String} {left right : Node} :
      SplittableOperand left → SplittableOperand right → (op ∈ ["&&", "||"] → right.hasSteps = false) →
        Splittable (.binary op left right)

/-- An expression without its steps, all of them to run afterwards, and the prefix ones before it too. -/
def Node.split (expr : Node) : SplitTest := ⟨expr.steps.filter Step.isPrefix, expr.withoutSteps, expr.steps⟩

theorem Node.split_of_hasSteps {expr : Node} (h : expr.hasSteps = false) : expr.split = .pure expr := by
  rw [split, (steps_eq_nil_iff expr).mpr h, withoutSteps_of_hasSteps h]
  rfl

theorem Node.split_step {op : String} {operand : Node} (hop : isStepOp op = true) (h : operand.hasSteps = false) :
    (unary op operand).split = .ofStep ⟨op, operand⟩ := by
  have hsteps : (unary op operand).steps = [⟨op, operand⟩] := by
    rw [steps, (steps_eq_nil_iff operand).mpr h, if_pos hop]
    rfl
  have hcond : (unary op operand).withoutSteps = operand := by
    rw [withoutSteps, if_pos hop, withoutSteps_of_hasSteps h]
  have hform : Step.isPostfix ⟨op, operand⟩ = !Step.isPrefix ⟨op, operand⟩ := Step.isPostfix_eq hop
  rw [split, hsteps, hcond, SplitTest.ofStep, hform]
  cases hahead : Step.isPrefix ⟨op, operand⟩ <;> simp [hahead]

theorem Node.split_binary (op : String) (left right : Node) :
    (binary op left right).split = .binary op left.split right.split := by
  rw [split, steps, withoutSteps, List.filter_append]
  rfl

theorem splitOperand_eq_ok_iff {node : Node} {split : SplitTest} :
    splitOperand node = .ok split ↔ SplittableOperand node ∧ split = node.split := by
  constructor
  · intro h
    unfold splitOperand at h
    split at h
    · rename_i hsteps
      have hnone : node.hasSteps = false := by simpa using hsteps
      cases h
      exact ⟨.stepless hnone, (Node.split_of_hasSteps hnone).symm⟩
    · split at h
      · split at h
        · rename_i hstep
          rw [Bool.and_eq_true, Bool.not_eq_true'] at hstep
          cases h
          exact ⟨.step hstep.1 hstep.2, (Node.split_step hstep.1 hstep.2).symm⟩
        · cases h
      · cases h
  · rintro ⟨hnode, rfl⟩
    cases hnode with
    | stepless hnone =>
      unfold splitOperand
      rw [if_pos (by simp [hnone]), Node.split_of_hasSteps hnone]
    | step hop hnone =>
      unfold splitOperand
      rw [if_neg (by simp [Node.hasSteps, hop]), Node.split_step hop hnone]
      exact if_pos (by simp [hop, hnone])

private theorem splitTest_of_operand {test : Node} (h : test.hasSteps = false ∨ test.isStep = true) :
    splitTest test = splitOperand test := by
  unfold splitTest
  split
  · rename_i hnone
    unfold splitOperand
    rw [if_pos hnone]
  · rename_i hsteps
    have hstep : test.isStep = true := h.resolve_left (by simpa using hsteps)
    rw [if_pos hstep]

private theorem splitTest_binary {op : String} {left right : Node} {split : SplitTest} :
    splitTest (.binary op left right) = .ok split ↔
      (op ∈ ["&&", "||"] → right.hasSteps = false) ∧ ∃ l r, splitOperand left = .ok l ∧ splitOperand right = .ok r ∧
        split = .binary op l r := by
  have hsides : (do return .binary op (← splitOperand left) (← splitOperand right)) = Except.ok split ↔
      ∃ l r, splitOperand left = .ok l ∧ splitOperand right = .ok r ∧ split = .binary op l r := by
    cases splitOperand left <;> cases splitOperand right <;> simp [bind, Except.bind, pure, Except.pure, eq_comm]
  unfold splitTest
  split
  · -- without steps both ways give the test itself
    rename_i hnone
    have hnone' : left.hasSteps = false ∧ right.hasSteps = false := by simpa [Node.hasSteps] using hnone
    have hl : splitOperand left = .ok (.pure left) := by simp [splitOperand, hnone']
    have hr : splitOperand right = .ok (.pure right) := by simp [splitOperand, hnone']
    simp [hl, hr, hnone', SplitTest.binary, SplitTest.pure, eq_comm]
  · simp only [Node.isStep, Bool.false_eq_true, ↓reduceIte]
    split
    · rename_i hlazy
      simp_all
    · rename_i hlazy
      rw [hsides, iff_and_self]
      exact fun _ => by simpa using hlazy

theorem splitTest_eq_split {test : Node} {split : SplitTest} :
    splitTest test = .ok split ↔ Splittable test ∧ split = test.split := by
  by_cases houter : test.hasSteps = false ∨ test.isStep = true
  · have hsplittable : Splittable test ↔ SplittableOperand test := by
      refine ⟨fun h => ?_, .operand⟩
      cases h with
      | operand h => exact h
      | binary => exact .stepless (houter.resolve_right (by simp [Node.isStep]))
    rw [splitTest_of_operand houter, splitOperand_eq_ok_iff, hsplittable]
  · rw [not_or] at houter
    obtain ⟨hsteps, hstep⟩ := houter
    have hoperand : ¬SplittableOperand test := by
      intro h
      cases h with
      | stepless hnone => exact hsteps hnone
      | step hop => exact hstep hop
    cases test with
    | binary op left right =>
      rw [splitTest_binary, Node.split_binary]
      constructor
      · rintro ⟨hlazy, l, r, hl, hr, rfl⟩
        obtain ⟨hleft, rfl⟩ := splitOperand_eq_ok_iff.mp hl
        obtain ⟨hright, rfl⟩ := splitOperand_eq_ok_iff.mp hr
        exact ⟨.binary hleft hright hlazy, rfl⟩
      · rintro ⟨h, rfl⟩
        cases h with
        | operand h => exact absurd h hoperand
        | binary hleft hright hlazy =>
          exact ⟨hlazy, _, _, splitOperand_eq_ok_iff.mpr ⟨hleft, rfl⟩, splitOperand_eq_ok_iff.mpr ⟨hright, rfl⟩, rfl⟩
    | _ =>
      -- steps below any other node cannot be taken out
      refine iff_of_false (fun h => ?_) (fun h => ?_)
      · simp_all [splitTest]
      · cases h.1 with
        | operand h => exact hoperand h

/-- A test is split just if its steps are on the outside.  All of them run after it, the prefix ones run before it too,
and none is left in it. -/
theorem splitTest_eq_ok_iff (test : Node) (split : SplitTest) :
    splitTest test = .ok split ↔
      Splittable test ∧ split = ⟨test.steps.filter Step.isPrefix, test.withoutSteps, test.steps⟩ ∧
        split.cond.hasSteps = false := by
  rw [splitTest_eq_split]
  constructor
  · rintro ⟨h, rfl⟩
    exact ⟨h, rfl, test.hasSteps_withoutSteps⟩
  · rintro ⟨h, rfl, -⟩
    exact ⟨h, rfl⟩

end StubGen.CUnit
