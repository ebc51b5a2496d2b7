import StubGen.Proofs.Expression.Rendering
import StubGen.Proofs.Loop.Execution
import StubGen.Proofs.Loop.Steps

/-!
# Tests with steps

`splitTest` takes the prefix steps out of a test.  Running them and then evaluating what is left gives what evaluating
the test gives, if each of them is a step of a variable that the test uses nowhere else.

* `SteadyTest` is this condition, and `Machine.Operators` says how a machine evaluates operators and steps.
* `SplitsTo` relates a test to its parts.
-/

namespace StubGen.CUnit

open Traced

mutual

/-- The expressions of which an expression is made, with the expression itself. -/
def Node.subexprs : Node → List Node
  | .unary op operand => .unary op operand :: operand.subexprs
  | .binary op left right => .binary op left right :: (left.subexprs ++ right.subexprs)
  | .assign op target value => .assign op target value :: (target.subexprs ++ value.subexprs)
  | .ternary cond whenTrue whenFalse =>
    .ternary cond whenTrue whenFalse :: (cond.subexprs ++ whenTrue.subexprs ++ whenFalse.subexprs)
  | .call callee none => .call callee none :: callee.subexprs
  | .call callee (some args) => .call callee (some args) :: (callee.subexprs ++ args.subexprs)
  | .subscript base index => .subscript base index :: (base.subexprs ++ index.subexprs)
  | .member base access field => .member base access field :: base.subexprs
  | .cast type operand => .cast type operand :: operand.subexprs
  | .exprList exprs => .exprList exprs :: subexprsOf exprs
  | .initList exprs => .initList exprs :: subexprsOf exprs
  | .designated path value => .designated path value :: value.subexprs
  | .compoundLiteral type init => .compoundLiteral type init :: init.subexprs
  | expr => [expr]
termination_by structural expr => expr

/-- The expressions of which expressions are made. -/
def subexprsOf : List Node → List Node
  | [] => []
  | expr :: rest => expr.subexprs ++ subexprsOf rest
termination_by structural exprs => exprs

end

/-- Whether evaluating the node itself may change the state. -/
def Node.changesState : Node → Bool
  | .call .. | .assign .. => true
  | node => node.isStep

/-- The expression changes no state. -/
def Effectless (expr : Node) : Prop := ∀ sub ∈ expr.subexprs, sub.changesState = false

/-- A test whose steps are prefix steps of variables that it uses only once, without calls and assignments. -/
structure SteadyTest (test : Node) : Prop where
  prefixed : ∀ op operand, .unary op operand ∈ test.subexprs → Node.isStepOp op = true →
    op ∈ ["++", "--"] ∧ ∃ name, operand = .ident name ∧ test.subexprs.countP (·.isVariable name) = 1
  plain : ∀ sub ∈ test.subexprs, sub.changesState = true → sub.isStep = true

/-- How a machine evaluates operators and prefix steps.  Only `&&` and `||` may leave out their right operand, the
value of a step is the new value of its variable, and a step changes no value that does not use the variable. -/
structure Machine.Operators {σ V : Type} (machine : Machine σ V) where
  combine : String → V → V → V
  ofBool : Bool → V
  eval_strict : ∀ {op : String} (left right : Node) (state : σ), op ∉ ["&&", "||"] →
    machine.eval (.binary op left right) state =
      let (l, middle) := machine.eval left state
      let (r, final) := machine.eval right middle
      (combine op l r, final)
  eval_lazy : ∀ {op : String} (left right : Node) (state : σ), op ∈ ["&&", "||"] →
    machine.eval (.binary op left right) state =
      let (l, middle) := machine.eval left state
      if machine.truth l = (op = "&&") then
        let (r, final) := machine.eval right middle
        (ofBool (machine.truth r), final)
      else (ofBool (machine.truth l), middle)
  eval_step : ∀ {op : String} (name : String) (state : σ), op ∈ ["++", "--"] →
    machine.eval (.unary op (.ident name)) state =
      let stepped := machine.step ⟨op, .ident name⟩ state
      ((machine.eval (.ident name) stepped).1, stepped)
  eval_effectless : ∀ {expr : Node} (state : σ), Effectless expr → (machine.eval expr state).2 = state
  eval_unused : ∀ {expr : Node} {name : String} (op : String) (state : σ), Effectless expr →
    (∀ sub ∈ expr.subexprs, sub.isVariable name = false) →
      (machine.eval expr (machine.step ⟨op, .ident name⟩ state)).1 = (machine.eval expr state).1

/-! ### Texts -/

/-- No part of the expression is a step. -/
def StepFree (expr : Node) : Prop := ∀ sub ∈ expr.subexprs, sub.isStep = false

/-- No part of the expressions is a step. -/
def AreStepFree (exprs : List Node) : Prop := ∀ sub ∈ subexprsOf exprs, sub.isStep = false

private theorem areStepFree_nil : AreStepFree [] := by
  intro sub hsub
  cases hsub

private theorem areStepFree_cons {expr : Node} {rest : List Node} (h : StepFree expr) (hrest : AreStepFree rest) :
    AreStepFree (expr :: rest) := by
  rw [AreStepFree, subexprsOf, List.forall_mem_append]
  exact ⟨h, hrest⟩

private theorem stepFree_atom {expr : Node} (h : expr.subexprs = [expr]) (hstep : expr.isStep = false) :
    StepFree expr := by
  rw [StepFree, h, List.forall_mem_singleton]
  exact hstep

private theorem stepFree_unary {op : String} {operand : Node} (hop : Node.isStepOp op = false) (h : StepFree operand) :
    StepFree (.unary op operand) := by
  rw [StepFree, Node.subexprs, List.forall_mem_cons]
  exact ⟨hop, h⟩

private theorem stepFree_assign (op : String) {name : String} {value : Node} (h : StepFree value) :
    StepFree (.assign op (.ident name) value) := by
  rw [StepFree, Node.subexprs, List.forall_mem_cons, List.forall_mem_append]
  exact ⟨rfl, stepFree_atom rfl rfl, h⟩

private theorem stepFree_designated (path : List Node) {value : Node} (h : StepFree value) :
    StepFree (.designated path value) := by
  rw [StepFree, Node.subexprs, List.forall_mem_cons]
  exact ⟨rfl, h⟩

/-- An expression with a text has no steps. -/
theorem stepFree_of_rendered {reduce : Bool} {expr : Node} {text : String}
    (h : (renderExpr reduce expr).result = .ok text) : StepFree expr := by
  revert text
  apply renderExpr.induct reduce
    (fun expr => ∀ {text}, (renderExpr reduce expr).result = .ok text → StepFree expr)
    (fun position exprs => ∀ {texts}, (renderEntries reduce position exprs).result = .ok texts → AreStepFree exprs)
    (fun exprs => ∀ {texts}, (renderExprs reduce exprs).result = .ok texts → AreStepFree exprs)
  all_goals intros
  case case1 => exact stepFree_atom rfl rfl
  case case2 => exact stepFree_atom rfl rfl
  case case3 ihl ihr text h =>
    obtain ⟨_, l, r, -, hl, hr, -⟩ := renderExpr_binary.mp h
    rw [StepFree, Node.subexprs, List.forall_mem_cons, List.forall_mem_append]
    exact ⟨rfl, ihl hl, ihr hr⟩
  case case4 ih text h =>
    obtain ⟨inner, hinner, -⟩ := renderExpr_not.mp h
    exact stepFree_unary (by decide) (ih hinner)
  case case5 op operand _ hop ih text h =>
    obtain ⟨inner, hinner, -⟩ := (renderExpr_sign (by simpa using hop)).mp h
    refine stepFree_unary ?_ (ih hinner)
    rcases hop with rfl | rfl | rfl <;> rfl
  case case6 op operand _ _ hop ih text h =>
    rw [renderExpr_address (by simpa using hop)] at h
    refine stepFree_unary ?_ (ih h)
    rcases hop with rfl | rfl <;> rfl
  case case7 hnot hsign haddress hstep ih text h =>
    -- a step has no text
    rw [renderExpr, if_neg hnot, if_neg hsign, if_neg haddress, if_pos hstep] at h
    obtain ⟨inner, -, h⟩ := bind_eq_ok.mp h
    cases h
  case case8 hnot hsign haddress hstep ih text h =>
    rw [renderExpr, if_neg hnot, if_neg hsign, if_neg haddress, if_neg hstep] at h
    obtain ⟨inner, hinner, -⟩ := bind_eq_ok.mp h
    exact stepFree_unary (by simpa using hstep) (ih hinner)
  case case9 ih text h =>
    obtain ⟨inner, hinner, -⟩ := renderExpr_assign.mp h
    exact stepFree_assign _ (ih hinner)
  case case10 hop ih text h =>
    obtain ⟨inner, hinner, -⟩ := renderExpr_assign.mp h
    rw [if_neg hop] at hinner
    obtain ⟨_, _, r, -, -, hr, -⟩ := renderBinary_eq_ok.mp hinner
    exact stepFree_assign _ (ih hr)
  case case11 htarget text h =>
    rw [renderExpr] at h
    · cases h
    · exact htarget
  case case12 iht ihc ihf text h =>
    obtain ⟨t, c, f, ht, hc, hf, -⟩ := renderExpr_ternary.mp h
    rw [StepFree, Node.subexprs, List.forall_mem_cons, List.forall_mem_append, List.forall_mem_append]
    exact ⟨rfl, ⟨ihc hc, iht ht⟩, ihf hf⟩
  case case13 callee args ih ihargs text h =>
    obtain ⟨c, texts, hc, htexts, -⟩ := renderExpr_call.mp h
    revert ihargs
    split
    · intro ihargs
      rw [StepFree, Node.subexprs, List.forall_mem_cons, List.forall_mem_append, Node.subexprs, List.forall_mem_cons]
      exact ⟨rfl, ih hc, rfl, ihargs htexts⟩
    · rename_i arg hlist
      intro ihargs
      have hargs : argsOf (some arg) = [arg] := by
        rw [argsOf]
        exact hlist
      rw [hargs] at htexts
      obtain ⟨first, others, hfirst, -⟩ := renderExprs_cons.mp htexts
      rw [StepFree, Node.subexprs, List.forall_mem_cons, List.forall_mem_append]
      exact ⟨rfl, ih hc, ihargs hfirst⟩
    · intro _
      rw [StepFree, Node.subexprs, List.forall_mem_cons]
      exact ⟨rfl, ih hc⟩
  case case14 ihb ihi text h =>
    obtain ⟨b, i, hb, hi, -⟩ := renderExpr_subscript.mp h
    rw [StepFree, Node.subexprs, List.forall_mem_cons, List.forall_mem_append]
    exact ⟨rfl, ihb hb, ihi hi⟩
  case case15 ihb ihf text h =>
    obtain ⟨b, f, hb, -, -⟩ := renderExpr_member.mp h
    rw [StepFree, Node.subexprs, List.forall_mem_cons]
    exact ⟨rfl, ihb hb⟩
  case case16 ih text h =>
    rw [StepFree, Node.subexprs, List.forall_mem_cons]
    exact ⟨rfl, ih h⟩
  case case17 ih text h =>
    rw [StepFree, Node.subexprs, List.forall_mem_cons]
    exact ⟨rfl, areStepFree_cons (ih h) areStepFree_nil⟩
  case case18 hone text h =>
    rw [renderExpr] at h
    · cases h
    · exact hone
  case case19 hany ih text h =>
    rw [renderExpr, if_pos hany] at h
    obtain ⟨texts, htexts, -⟩ := bind_eq_ok.mp h
    rw [StepFree, Node.subexprs, List.forall_mem_cons]
    exact ⟨rfl, ih htexts⟩
  case case20 hany ih text h =>
    rw [renderExpr, if_neg hany] at h
    obtain ⟨texts, htexts, -⟩ := bind_eq_ok.mp h
    rw [StepFree, Node.subexprs, List.forall_mem_cons]
    exact ⟨rfl, ih htexts⟩
  case case21 ih text h =>
    rw [StepFree, Node.subexprs, List.forall_mem_cons]
    exact ⟨rfl, ih h⟩
  case case22 => exact stepFree_atom rfl rfl
  case case23 text h =>
    rw [renderExpr] at h
    · cases h
    all_goals assumption
  case case24 => exact areStepFree_nil
  case case25 ihv ih texts h =>
    rw [renderEntries] at h
    obtain ⟨_, -, h⟩ := bind_eq_ok.mp h
    obtain ⟨value, hvalue, h⟩ := bind_eq_ok.mp h
    obtain ⟨others, hothers, -⟩ := bind_eq_ok.mp h
    exact areStepFree_cons (stepFree_designated _ (ihv hvalue)) (ih hothers)
  case case26 hindex ihv ih ihi texts h =>
    rw [renderEntries] at h
    · obtain ⟨_, -, h⟩ := bind_eq_ok.mp h
      obtain ⟨value, hvalue, h⟩ := bind_eq_ok.mp h
      obtain ⟨others, hothers, -⟩ := bind_eq_ok.mp h
      exact areStepFree_cons (stepFree_designated _ (ihv hvalue)) (ih hothers)
    · exact hindex
  case case27 ihv ih texts h =>
    rw [renderEntries] at h
    obtain ⟨_, -, h⟩ := bind_eq_ok.mp h
    obtain ⟨value, hvalue, h⟩ := bind_eq_ok.mp h
    obtain ⟨others, hothers, -⟩ := bind_eq_ok.mp h
    exact areStepFree_cons (stepFree_designated _ (ihv hvalue)) (ih hothers)
  case case28 hplain ihe ih texts h =>
    rw [renderEntries] at h
    · obtain ⟨value, hvalue, h⟩ := bind_eq_ok.mp h
      obtain ⟨others, hothers, -⟩ := bind_eq_ok.mp h
      exact areStepFree_cons (ihe hvalue) (ih hothers)
    · exact hplain
  case case29 => exact areStepFree_nil
  case case30 ihe ih texts h =>
    obtain ⟨first, others, hfirst, hothers, -⟩ := renderExprs_cons.mp h
    exact areStepFree_cons (ihe hfirst) (ih hothers)

/-! ### Splitting -/

theorem splitOperand_ok {node : Node} {split : SplitTest} (h : splitOperand node = .ok split) :
    node.hasSteps = false ∧ split = .pure node ∨
      ∃ op operand, node = .unary op operand ∧ Node.isStepOp op = true ∧ split = .ofStep ⟨op, operand⟩ := by
  obtain ⟨hnode, rfl⟩ := splitOperand_eq_ok_iff.mp h
  cases hnode with
  | stepless hnone => exact Or.inl ⟨hnone, Node.split_of_hasSteps hnone⟩
  | step hop hnone => exact Or.inr ⟨_, _, rfl, hop, Node.split_step hop hnone⟩

theorem splitTest_ok {cond : Node} {split : SplitTest} (h : splitTest cond = .ok split) :
    cond.hasSteps = false ∧ split = .pure cond ∨ cond.hasSteps = true ∧ (splitOperand cond = .ok split ∨
      ∃ op left right l r, cond = .binary op left right ∧ (op ∈ ["&&", "||"] → right.hasSteps = false) ∧
        splitOperand left = .ok l ∧ splitOperand right = .ok r ∧ split = .binary op l r) := by
  obtain ⟨hcond, rfl⟩ := splitTest_eq_split.mp h
  cases hsteps : cond.hasSteps with
  | false => exact Or.inl ⟨rfl, Node.split_of_hasSteps hsteps⟩
  | true =>
    refine Or.inr ⟨rfl, ?_⟩
    cases hcond with
    | operand hnode => exact Or.inl (splitOperand_eq_ok_iff.mpr ⟨hnode, rfl⟩)
    | binary hleft hright hlazy =>
      exact Or.inr ⟨_, _, _, _, _, rfl, hlazy, splitOperand_eq_ok_iff.mpr ⟨hleft, rfl⟩,
        splitOperand_eq_ok_iff.mpr ⟨hright, rfl⟩, Node.split_binary ..⟩

namespace Machine

variable {σ V : Type} (machine : Machine σ V)

def steps (steps : List Step) (state : σ) : σ := steps.foldl (fun state step => machine.step step state) state

/-- Running the steps and evaluating what is left of a test is evaluating the test. -/
structure SplitsTo (test : Node) (split : SplitTest) : Prop where
  eval_eq : ∀ state, machine.eval test state =
    ((machine.eval split.cond (machine.steps split.before state)).1, machine.steps split.before state)
  still : ∀ state, (machine.eval split.cond state).2 = state
  after_eq : split.after = split.before

end Machine

/-! ### Parts of tests -/

theorem effectless_of_rendered {reduce : Bool} {test expr : Node} {text : String}
    (hplain : ∀ sub ∈ test.subexprs, sub.changesState = true → sub.isStep = true)
    (hsub : expr.subexprs ⊆ test.subexprs) (htext : (renderExpr reduce expr).result = .ok text) :
    Effectless expr := by
  intro sub hmem
  cases hchanges : sub.changesState with
  | false => rfl
  | true =>
    have := hplain sub (hsub hmem) hchanges
    rw [stepFree_of_rendered htext sub hmem] at this
    cases this

theorem subexprs_ident (name : String) : (Node.ident name).subexprs = [.ident name] := rfl

theorem effectless_ident (name : String) : Effectless (.ident name) := by
  intro sub hsub
  rw [subexprs_ident, List.mem_singleton] at hsub
  rw [hsub]
  rfl

/-- Neither a test with steps nor what is left of it is a constant. -/
theorem intValue?_splitTest {test : Node} {split : SplitTest} (hsteps : test.hasSteps = true)
    (hvariables : ∀ op operand, .unary op operand ∈ test.subexprs → Node.isStepOp op = true →
      ∃ name, operand = .ident name)
    (h : splitTest test = .ok split) : test.intValue? = none ∧ split.cond.intValue? = none := by
  rcases splitTest_ok h with ⟨hnone, -⟩ | ⟨-, hoperand | ⟨op, left, right, l, r, rfl, -, -, -, rfl⟩⟩
  · rw [hnone] at hsteps
    cases hsteps
  · rcases splitOperand_ok hoperand with ⟨hnone, -⟩ | ⟨op, operand, rfl, hop, rfl⟩
    · rw [hnone] at hsteps
      cases hsteps
    · obtain ⟨name, rfl⟩ := hvariables op operand (by rw [Node.subexprs]; exact List.mem_cons_self ..) hop
      exact ⟨rfl, rfl⟩
  · exact ⟨rfl, rfl⟩

theorem subexprs_split {node : Node} {split : SplitTest} (h : splitOperand node = .ok split) :
    split.cond.subexprs ⊆ node.subexprs := by
  rcases splitOperand_ok h with ⟨-, rfl⟩ | ⟨op, operand, rfl, -, rfl⟩
  · exact List.Subset.refl _
  · rw [Node.subexprs]
    exact List.subset_cons_self ..

end StubGen.CUnit
