import StubGen.Proofs.Effect.Purity
import StubGen.Proofs.Expression.Entries

/-!
# Steps have no value

The output has no increment or decrement that could stand in an expression, so an expression with one is refused,
wherever in it the step stands.

* `Renders` holds of what has a place in the text of an expression: it has a text of its own, or is made of such parts
  only. It passes from an expression to the parts that have a place in its text (`Renders.parts`), and no step has it.
* `renderExpr_error_of_step` puts this together: no step is dropped on the way to a text, and `hasSteps` finds none
  but such.
-/

namespace StubGen.CUnit

open Traced

/-- The expression has a text. -/
def HasText (reduce : Bool) (expr : Node) : Prop := ∃ text, (renderExpr reduce expr).result = .ok text

/-- The expression has a text, or is a list of arguments or an element with a designator, all of whose parts have
one. -/
def Renders (reduce : Bool) : Node → Prop
  | .exprList exprs => ∀ expr ∈ exprs, HasText reduce expr
  | .designated path value => ∀ part ∈ (Node.designated path value).visitedParts, HasText reduce part
  | expr => HasText reduce expr

variable {reduce : Bool} {expr : Node}

theorem HasText.renders (h : HasText reduce expr) : Renders reduce expr := by
  obtain ⟨text, htext⟩ := h
  cases expr with
  | exprList exprs =>
    match exprs with
    | [] => cases htext
    | [single] => exact List.forall_mem_singleton.mpr ⟨text, htext⟩
    | _ :: _ :: _ => cases htext
  | designated path value => cases htext
  | _ => exact ⟨text, htext⟩

/-- A step has no text. -/
theorem HasText.isStep (h : HasText reduce expr) : expr.isStep = false := by
  obtain ⟨text, htext⟩ := h
  cases expr with
  | unary op operand =>
    have hops : Node.isStepOp op = true → op ∉ ["!", "-", "+", "~", "&", "*"] := by
      intro hstep
      simp only [Node.isStepOp, decide_eq_true_eq] at hstep
      rcases hstep with rfl | rfl | rfl | rfl <;> decide
    cases hstep : Node.isStepOp op with
    | false => exact hstep
    | true =>
      have hplain := hops hstep
      simp only [List.mem_cons, List.not_mem_nil, or_false, not_or] at hplain
      rw [renderExpr, if_neg hplain.1, if_neg (by simp [hplain]), if_neg (by simp [hplain]), if_pos hstep] at htext
      obtain ⟨inner, -, hfail⟩ := bind_eq_ok.mp htext
      cases hfail
  | _ => rfl

/-! ### Parts -/

private theorem hasText_of_renderExprs {exprs : List Node} {texts : List String}
    (h : (renderExprs reduce exprs).result = .ok texts) : ∀ expr ∈ exprs, HasText reduce expr := by
  induction exprs generalizing texts with
  | nil => exact List.forall_mem_nil _
  | cons expr rest ih =>
    obtain ⟨first, others, hfirst, hothers, -⟩ := renderExprs_cons.mp h
    exact List.forall_mem_cons.mpr ⟨⟨first, hfirst⟩, ih hothers⟩

private theorem hasText_of_designatorText {position : Nat} {path : List Node} {key : String}
    (h : (designatorText reduce position path).result = .ok key) : ∀ index ∈ path.take 1, HasText reduce index := by
  cases path with
  | nil => exact List.forall_mem_nil _
  | cons index others =>
    refine List.forall_mem_singleton.mpr ?_
    cases index with
    | ident name => exact ⟨escapeName name, rfl⟩
    | _ => exact ⟨key, h⟩

private theorem renders_of_renderEntries {position : Nat} {exprs : List Node} {texts : List String}
    (h : (renderEntries reduce position exprs).result = .ok texts) : ∀ expr ∈ exprs, Renders reduce expr := by
  induction exprs generalizing position texts with
  | nil => exact List.forall_mem_nil _
  | cons expr rest ih =>
    rw [List.forall_mem_cons]
    cases hdesignated : isDesignated expr with
    | false =>
      obtain ⟨text, others, htext, hothers, -⟩ := (renderEntries_plain hdesignated).mp h
      exact ⟨HasText.renders ⟨text, htext⟩, ih hothers⟩
    | true =>
      cases expr with
      | designated path value =>
        obtain ⟨key, text, others, hkey, htext, hothers, -⟩ := renderEntries_designated.mp h
        refine ⟨List.forall_mem_append.mpr ⟨hasText_of_designatorText hkey, ?_⟩, ih hothers⟩
        exact List.forall_mem_singleton.mpr ⟨text, htext⟩
      | _ => cases hdesignated

private theorem renders_initList {exprs : List Node} (h : HasText reduce (.initList exprs)) :
    ∀ expr ∈ exprs, Renders reduce expr := by
  obtain ⟨text, htext⟩ := h
  rw [renderExpr] at htext
  split at htext
  · obtain ⟨texts, htexts, -⟩ := bind_eq_ok.mp htext
    exact renders_of_renderEntries htexts
  · obtain ⟨texts, htexts, -⟩ := bind_eq_ok.mp htext
    exact fun expr hexpr => (hasText_of_renderExprs htexts expr hexpr).renders

private theorem hasText_operand {op : String} {operand : Node} (h : HasText reduce (.unary op operand)) :
    HasText reduce operand := by
  obtain ⟨text, htext⟩ := h
  rw [renderExpr] at htext
  split at htext
  · obtain ⟨inner, hinner, -⟩ := bind_eq_ok.mp htext
    exact ⟨inner, hinner⟩
  · split at htext
    · obtain ⟨inner, hinner, -⟩ := bind_eq_ok.mp htext
      exact ⟨inner, hinner⟩
    · split at htext
      · exact ⟨text, htext⟩
      · split at htext
        · obtain ⟨inner, hinner, -⟩ := bind_eq_ok.mp htext
          exact ⟨inner, hinner⟩
        · obtain ⟨inner, hinner, -⟩ := bind_eq_ok.mp htext
          exact ⟨inner, hinner⟩

/-- As a value, only a name is assigned to; a compound assignment has the text of an operation on it. -/
private theorem hasText_assigned {op : String} {target value : Node} (h : HasText reduce (.assign op target value)) :
    target.isIdent = true ∧ HasText reduce value := by
  obtain ⟨text, htext⟩ := h
  cases target with
  | ident name =>
    obtain ⟨inner, hinner, -⟩ := renderExpr_assign.mp htext
    refine ⟨rfl, ?_⟩
    split at hinner
    · exact ⟨inner, hinner⟩
    · obtain ⟨_, _, r, -, -, hr, -⟩ := renderBinary_eq_ok.mp hinner
      exact ⟨r, hr⟩
  | _ => cases htext

private theorem renders_args {callee : Node} {args : Option Node} (h : HasText reduce (.call callee args)) :
    HasText reduce callee ∧ ∀ part ∈ args, Renders reduce part := by
  obtain ⟨text, htext⟩ := h
  obtain ⟨c, texts, hc, htexts, -⟩ := renderExpr_call.mp htext
  refine ⟨⟨c, hc⟩, fun part hpart => ?_⟩
  obtain rfl := Option.mem_def.mp hpart
  have hargs := hasText_of_renderExprs htexts
  cases part with
  | exprList exprs => exact hargs
  | _ => exact (hargs _ (List.mem_singleton_self _)).renders

/-- What has a place in the text of an expression has a text itself, or its parts have. -/
theorem HasText.parts (h : HasText reduce expr) : ∀ part ∈ expr.visitedParts, Renders reduce part := by
  have htwo : ∀ {first second : Node}, HasText reduce first → HasText reduce second →
      ∀ part ∈ [first, second], Renders reduce part := by
    intro first second hfirst hsecond
    simpa using And.intro hfirst.renders hsecond.renders
  obtain ⟨text, htext⟩ := h
  cases expr with
  | unary op operand => exact List.forall_mem_singleton.mpr (hasText_operand ⟨text, htext⟩).renders
  | cast type operand | compoundLiteral type operand =>
    exact List.forall_mem_singleton.mpr (HasText.renders ⟨text, htext⟩)
  | binary op left right =>
    obtain ⟨_, l, r, -, hl, hr, -⟩ := renderExpr_binary.mp htext
    exact htwo ⟨l, hl⟩ ⟨r, hr⟩
  | assign op target value =>
    obtain ⟨hname, hvalue⟩ := hasText_assigned ⟨text, htext⟩
    cases target with
    | ident name => exact htwo ⟨escapeName name, rfl⟩ hvalue
    | _ => cases hname
  | ternary cond whenTrue whenFalse =>
    obtain ⟨t, c, f, ht, hc, hf, -⟩ := renderExpr_ternary.mp htext
    exact List.forall_mem_cons.mpr ⟨HasText.renders ⟨c, hc⟩, htwo ⟨t, ht⟩ ⟨f, hf⟩⟩
  | call callee args =>
    obtain ⟨hcallee, hargs⟩ := renders_args ⟨text, htext⟩
    refine List.forall_mem_cons.mpr ⟨hcallee.renders, fun part hpart => hargs part ?_⟩
    exact Option.mem_toList.mp hpart
  | subscript base index =>
    obtain ⟨b, i, hb, hi, -⟩ := renderExpr_subscript.mp htext
    exact htwo ⟨b, hb⟩ ⟨i, hi⟩
  | member base access field =>
    obtain ⟨b, f, hb, hf, -⟩ := renderExpr_member.mp htext
    exact htwo ⟨b, hb⟩ ⟨f, hf⟩
  | exprList exprs =>
    exact fun part hpart => (HasText.renders ⟨text, htext⟩ part hpart).renders
  | initList exprs => exact renders_initList ⟨text, htext⟩
  | designated path value => cases htext
  | _ => exact List.forall_mem_nil _

theorem Renders.parts (h : Renders reduce expr) : ∀ part ∈ expr.visitedParts, Renders reduce part := by
  cases expr with
  | exprList exprs => exact fun part hpart => (h part hpart).renders
  | designated path value => exact fun part hpart => (h part hpart).renders
  | _ => exact HasText.parts h

theorem Renders.isStep (h : Renders reduce expr) : expr.isStep = false := by
  cases expr with
  | exprList exprs => rfl
  | designated path value => rfl
  | _ => exact HasText.isStep h

/-- Nothing that has a place in a text is a step. -/
theorem Renders.stepless (h : Renders reduce expr) : ∀ sub ∈ expr.visited, sub.isStep = false := by
  induction expr using Node.visitedInduction with
  | step expr ih => exact Node.forall_mem_visited.mpr ⟨h.isStep, fun part hpart => ih part hpart (h.parts part hpart)⟩

/-! ### What `hasSteps` finds -/

namespace Node

theorem anyHasSteps_eq_any (exprs : List Node) : anyHasSteps exprs = exprs.any hasSteps := by
  induction exprs with
  | nil => rfl
  | cons expr rest ih => rw [anyHasSteps, ih, List.any_cons]

/-- A step that `hasSteps` finds is the node itself, or stands in a visited part. -/
theorem exists_part_of_hasSteps {expr : Node} (h : expr.hasSteps = true) :
    expr.isStep = true ∨ ∃ part ∈ expr.visitedParts, part.hasSteps = true := by
  cases expr
  case call callee args =>
    refine Or.inr ?_
    cases args <;> simpa [hasSteps, visitedParts] using h
  all_goals simp_all [hasSteps, isStep, visitedParts, anyHasSteps_eq_any, or_assoc]

/-- A step that `hasSteps` finds has a place in the text. -/
theorem exists_step_of_hasSteps {expr : Node} (h : expr.hasSteps = true) : ∃ sub ∈ expr.visited, sub.isStep = true := by
  induction expr using visitedInduction with
  | step expr ih =>
    rw [visited_eq]
    rcases exists_part_of_hasSteps h with hself | ⟨part, hpart, hfound⟩
    · exact ⟨expr, List.mem_cons_self .., hself⟩
    · obtain ⟨sub, hsub, hstep⟩ := ih part hpart hfound
      exact ⟨sub, List.mem_cons_of_mem _ (List.mem_flatMap.mpr ⟨part, hpart, hsub⟩), hstep⟩

end Node

/-- An expression with a step anywhere in what has a place in its text is refused. -/
theorem renderExpr_error_of_step (reduce : Bool) (expr : Node) :
    ((∃ sub ∈ expr.visited, sub.isStep = true) → ∃ cause, (renderExpr reduce expr).result = .error cause) ∧
    (expr.hasSteps = true → ∃ cause, (renderExpr reduce expr).result = .error cause) := by
  have hrefused : (∃ sub ∈ expr.visited, sub.isStep = true) →
      ∃ cause, (renderExpr reduce expr).result = .error cause := by
    rintro ⟨sub, hsub, hstep⟩
    cases hresult : (renderExpr reduce expr).result with
    | error cause => exact ⟨cause, rfl⟩
    | ok text =>
      have hnone := (HasText.renders ⟨text, hresult⟩).stepless sub hsub
      rw [hstep] at hnone
      cases hnone
  exact ⟨hrefused, fun h => hrefused (Node.exists_step_of_hasSteps h)⟩

/-- `(int[]){[n--] = 1}`. -/
def steppedDesignator : Node :=
  .compoundLiteral (.typename none (.array (.typeDecl none (.identifierType ["int"])) none))
    (.initList [.designated [.unary "p--" (.ident "n")] (.constant "int" "1")])

/-- `f(x ? a[i++] : 0)`. -/
def steppedArgument : Node :=
  .call (.ident "f") (some (.exprList [.ternary (.ident "x")
    (.subscript (.ident "a") (.unary "p++" (.ident "i"))) (.constant "int" "0")]))

/-- The step of the designator is refused, although `hasSteps` does not find it. -/
theorem renderExpr_error_steppedDesignator :
    ((∃ sub ∈ steppedDesignator.visited, sub.isStep = true) ∧ steppedDesignator.hasSteps = false ∧
      ∃ cause, (renderExpr true steppedDesignator).result = .error cause) ∧
    (steppedArgument.hasSteps = true ∧ ∃ cause, (renderExpr true steppedArgument).result = .error cause) := by
  have hvisited : ∃ sub ∈ steppedDesignator.visited, sub.isStep = true :=
    ⟨.unary "p--" (.ident "n"), by simp [steppedDesignator, Node.visited_eq, Node.visitedParts], by decide⟩
  have hsteps : steppedArgument.hasSteps = true := by decide
  exact ⟨⟨hvisited, by decide, (renderExpr_error_of_step true steppedDesignator).1 hvisited⟩,
    hsteps, (renderExpr_error_of_step true steppedArgument).2 hsteps⟩

end StubGen.CUnit
