import StubGen.Proofs.Jump.Tree
import StubGen.Proofs.Loop.Lowering

/-!
# Expressions without effects

An expression without calls, assignments and steps has the same value whenever it is evaluated, so that its text may
stand in several places.  `Node.hasEffects` looks for them, but not in all parts that have a place in the text.

* `Node.visited` lists the expressions that have a place in the text of an expression.
* `Node.passedOver` lists those of its parts at which `hasEffects` does not look.
* `Operations.evaluate` evaluates an expression, and `Operations.evaluateTimes` does so many times.
-/

namespace StubGen.CUnit

namespace Node

/-! ### What has a place in a text -/

/-- The parts of an expression that have a place in its text.  Types have none, and of a path of designators the first
one has. -/
def visitedParts : Node → List Node
  | unary _ operand | cast _ operand => [operand]
  | binary _ first second | assign _ first second | subscript first second | member first _ second => [first, second]
  | ternary cond whenTrue whenFalse => [cond, whenTrue, whenFalse]
  | call callee args => callee :: args.toList
  | exprList exprs | initList exprs => exprs
  | designated path value => path.take 1 ++ [value]
  | compoundLiteral _ init => [init]
  | _ => []

theorem visitedParts_subset (expr : Node) : expr.visitedParts ⊆ expr.parts := by
  intro part hpart
  cases expr
  case designated path value =>
    rcases List.mem_append.mp hpart with hindex | hvalue
    · exact List.mem_cons_of_mem value (List.mem_of_mem_take hindex)
    · rw [List.mem_singleton.mp hvalue]
      exact List.mem_cons_self ..
  all_goals simp_all [visitedParts, parts]

/-- The expressions that have a place in the text of an expression, the expression included. -/
def visited (expr : Node) : List Node := expr :: expr.visitedParts.attach.flatMap fun part => part.1.visited
termination_by sizeOf expr
decreasing_by exact sizeOf_lt_of_mem_parts (visitedParts_subset expr part.2)

theorem visited_eq (expr : Node) : expr.visited = expr :: expr.visitedParts.flatMap visited := by
  rw [visited, ← List.flatMap_map, List.attach_map_subtype_val]

theorem visited_ident (name : String) : (ident name).visited = [ident name] := by
  rw [visited_eq]
  rfl

theorem forall_mem_visited {P : Node → Prop} {expr : Node} :
    (∀ sub ∈ expr.visited, P sub) ↔ P expr ∧ ∀ part ∈ expr.visitedParts, ∀ sub ∈ part.visited, P sub := by
  rw [visited_eq, List.forall_mem_cons, List.forall_mem_flatMap]

/-- What holds of an expression whenever it holds of its visited parts holds of all expressions. -/
theorem visitedInduction {P : Node → Prop} (step : ∀ expr, (∀ part ∈ expr.visitedParts, P part) → P expr)
    (expr : Node) : P expr := step expr fun part _ => visitedInduction step part
termination_by sizeOf expr
decreasing_by exact sizeOf_lt_of_mem_parts (visitedParts_subset expr ‹_›)

/-! ### What `hasEffects` examines -/

/-- The visited parts at which `hasEffects` does not look: the initializers of objects and the names of members. -/
def passedOver : Node → List Node
  | member _ _ field => [field]
  | designated path value => path.take 1 ++ [value]
  | compoundLiteral _ init => [init]
  | _ => []

theorem anyHasEffects_eq_any (exprs : List Node) : anyHasEffects exprs = exprs.any hasEffects := by
  induction exprs with
  | nil => rfl
  | cons expr rest ih => rw [anyHasEffects, ih, List.any_cons]

/-- `hasEffects` looks at the node itself and at its visited parts, but for those that it passes over. -/
theorem hasEffects_parts {expr : Node} (h : expr.hasEffects = false) :
    expr.changesState = false ∧ ∀ part ∈ expr.visitedParts, part.hasEffects = false ∨ part ∈ expr.passedOver := by
  cases expr
  case member base access field => simpa [hasEffects, changesState, isStep, visitedParts, passedOver] using Or.inl h
  case designated path value => exact ⟨rfl, fun part hpart => Or.inr hpart⟩
  case compoundLiteral type init => exact ⟨rfl, fun part hpart => Or.inr hpart⟩
  all_goals simp_all [hasEffects, changesState, isStep, visitedParts, passedOver, anyHasEffects_eq_any]

/-- What `hasEffects` finds is the node itself, or stands in a visited part. -/
theorem exists_part_of_hasEffects {expr : Node} (h : expr.hasEffects = true) :
    expr.changesState = true ∨ ∃ part ∈ expr.visitedParts, part.hasEffects = true := by
  cases expr <;> simp_all [hasEffects, changesState, isStep, visitedParts, anyHasEffects_eq_any, or_assoc]

/-- What `hasEffects` finds is there. -/
theorem exists_changesState {expr : Node} (h : expr.hasEffects = true) :
    ∃ sub ∈ expr.visited, sub.changesState = true := by
  induction expr using visitedInduction with
  | step expr ih =>
    rw [visited_eq]
    rcases exists_part_of_hasEffects h with hself | ⟨part, hpart, hfound⟩
    · exact ⟨expr, List.mem_cons_self .., hself⟩
    · obtain ⟨sub, hsub, hchanges⟩ := ih part hpart hfound
      exact ⟨sub, List.mem_cons_of_mem _ (List.mem_flatMap.mpr ⟨part, hpart, hsub⟩), hchanges⟩

/-- What `hasEffects` does not find stands in a part that it passes over. -/
theorem exists_passedOver {expr sub : Node} (h : expr.hasEffects = false) (hsub : sub ∈ expr.visited)
    (hchanges : sub.changesState = true) :
    ∃ holder ∈ expr.visited, ∃ part ∈ holder.passedOver, sub ∈ part.visited := by
  induction expr using visitedInduction with
  | step expr ih =>
    obtain ⟨hself, hparts⟩ := hasEffects_parts h
    rw [visited_eq, List.mem_cons, List.mem_flatMap] at hsub
    obtain rfl | ⟨part, hpart, hsub⟩ := hsub
    · rw [hself] at hchanges
      cases hchanges
    · rcases hparts part hpart with hnone | hpassed
      · obtain ⟨holder, hholder, hholds⟩ := ih part hpart hnone hsub
        refine ⟨holder, ?_, hholds⟩
        rw [visited_eq]
        exact List.mem_cons_of_mem _ (List.mem_flatMap.mpr ⟨part, hpart, hholder⟩)
      · refine ⟨expr, ?_, part, hpassed, hsub⟩
        rw [visited_eq]
        exact List.mem_cons_self ..

/-- Nothing but names is passed over in the expression. -/
def Plain (expr : Node) : Prop := ∀ sub ∈ expr.visited, ∀ part ∈ sub.passedOver, part.isIdent = true

/-- In a plain expression `hasEffects` misses nothing. -/
theorem Plain.changesState {expr : Node} (hplain : expr.Plain) (h : expr.hasEffects = false) :
    ∀ sub ∈ expr.visited, sub.changesState = false := by
  intro sub hsub
  cases hchanges : sub.changesState with
  | false => rfl
  | true =>
    obtain ⟨holder, hholder, part, hpart, hmem⟩ := exists_passedOver h hsub hchanges
    have hident := hplain holder hholder part hpart
    cases part with
    | ident name =>
      rw [visited_ident, List.mem_singleton] at hmem
      subst hmem
      cases hchanges
    | _ => cases hident

theorem Plain.hasEffects_of_mem {expr sub : Node} (hplain : expr.Plain) (hsub : sub ∈ expr.visited)
    (hchanges : sub.changesState = true) : expr.hasEffects = true := by
  cases hnone : expr.hasEffects with
  | true => rfl
  | false =>
    rw [hplain.changesState hnone sub hsub] at hchanges
    cases hchanges

end Node

/-! ### Evaluation -/

/-- What the nodes of expressions do on states `σ`, with values `V`: the value of a node whose parts have these values,
and the state after it. -/
structure Operations (σ V : Type) where
  truth : V → Bool
  apply : Node → List V → σ → V × σ

namespace Operations

variable {σ V : Type} (operations : Operations σ V)

/-- Only calls, assignments and steps change the state. -/
def Quiet : Prop := ∀ node values state, node.changesState = false → (operations.apply node values state).2 = state

/-- Whether a logical operation needs its left operand only. -/
def decided (op : String) (left : V) : Bool :=
  (op = "&&" && !operations.truth left) || (op = "||" && operations.truth left)

/-- The value of an expression and the state after it.  Parts are evaluated from left to right, and of the parts of
`&&`, `||` and conditional expressions only those that are needed. -/
def evaluate (expr : Node) (state : σ) : V × σ :=
  match expr with
  | .binary op left right =>
    let first := evaluate left state
    if operations.decided op first.1 then operations.apply (.binary op left right) [first.1] first.2
    else
      let second := evaluate right first.2
      operations.apply (.binary op left right) [first.1, second.1] second.2
  | .ternary cond whenTrue whenFalse =>
    let test := evaluate cond state
    let chosen := if operations.truth test.1 then evaluate whenTrue test.2 else evaluate whenFalse test.2
    operations.apply (.ternary cond whenTrue whenFalse) [test.1, chosen.1] chosen.2
  | other =>
    let parts := other.visitedParts.attach.foldl
      (fun (done : List V × σ) part =>
        let next := evaluate part.1 done.2
        (done.1 ++ [next.1], next.2))
      ([], state)
    operations.apply other parts.1 parts.2
termination_by sizeOf expr
decreasing_by
  all_goals try decreasing_tactic
  exact Node.sizeOf_lt_of_mem_parts (Node.visitedParts_subset _ part.2)

/-- Evaluating expressions one after the other changes nothing if evaluating one of them does not. -/
private theorem foldl_still {α : Type} {parts : List α} {f : List V × σ → α → List V × σ}
    (h : ∀ part ∈ parts, ∀ done, (f done part).2 = done.2) (done : List V × σ) : (parts.foldl f done).2 = done.2 := by
  induction parts generalizing done with
  | nil => rfl
  | cons part rest ih =>
    rw [List.foldl_cons, ih fun part hpart => h part (List.mem_cons_of_mem _ hpart)]
    exact h part (List.mem_cons_self ..) done

variable {operations}

/-- Evaluating an expression without calls, assignments and steps leaves the state as it is. -/
theorem evaluate_still (hquiet : operations.Quiet) {expr : Node} (h : ∀ sub ∈ expr.visited, sub.changesState = false)
    (state : σ) : (operations.evaluate expr state).2 = state := by
  induction expr using Node.visitedInduction generalizing state with
  | step expr ih =>
    obtain ⟨hself, hparts⟩ := Node.forall_mem_visited.mp h
    have hpart : ∀ part ∈ expr.visitedParts, ∀ state, (operations.evaluate part state).2 = state :=
      fun part hpart => ih part hpart (hparts part hpart)
    have hnode : ∀ values state, (operations.apply expr values state).2 = state :=
      fun values state => hquiet expr values state hself
    unfold evaluate
    split
    · rename_i op left right
      have hleft := hpart left (by simp [Node.visitedParts]) state
      dsimp only
      split
      · rw [hnode, hleft]
      · rw [hnode, hpart right (by simp [Node.visitedParts]), hleft]
    · rename_i cond whenTrue whenFalse
      dsimp only
      rw [hnode]
      split
      · rw [hpart whenTrue (by simp [Node.visitedParts]), hpart cond (by simp [Node.visitedParts])]
      · rw [hpart whenFalse (by simp [Node.visitedParts]), hpart cond (by simp [Node.visitedParts])]
    · dsimp only
      rw [hnode]
      exact foldl_still (fun part _ done => hpart part.1 part.2 done.2) ([], state)

/-- Evaluates an expression many times. -/
def evaluateTimes (operations : Operations σ V) (expr : Node) : Nat → σ → List V × σ
  | 0, state => ([], state)
  | count + 1, state =>
    let first := operations.evaluate expr state
    let others := evaluateTimes operations expr count first.2
    (first.1 :: others.1, others.2)

theorem evaluateTimes_eq {expr : Node} (hstill : ∀ state, (operations.evaluate expr state).2 = state) (count : Nat)
    (state : σ) :
    operations.evaluateTimes expr count state = (List.replicate count (operations.evaluate expr state).1, state) := by
  induction count with
  | zero => rfl
  | succ count ih => rw [evaluateTimes, hstill, ih, List.replicate_succ]

end Operations

/-- An expression with effects has a call, an assignment or a step.  In one without effects these stand only in parts
that `hasEffects` passes over.  If these parts are names, there are none, and the expression has the same value
whenever it is evaluated. -/
theorem pure_of_hasEffects (expr : Node) :
    (expr.hasEffects = true → ∃ sub ∈ expr.visited, sub.changesState = true) ∧
    (expr.hasEffects = false →
      (∀ sub ∈ expr.visited, sub.changesState = true →
        ∃ holder ∈ expr.visited, ∃ part ∈ holder.passedOver, sub ∈ part.visited) ∧
      (expr.Plain → (∀ sub ∈ expr.visited, sub.changesState = false) ∧
        ∀ {σ V : Type} (operations : Operations σ V), operations.Quiet → ∀ count state,
          operations.evaluateTimes expr count state =
            (List.replicate count (operations.evaluate expr state).1, state))) := by
  refine ⟨Node.exists_changesState, fun h => ⟨fun sub hsub hchanges => Node.exists_passedOver h hsub hchanges, ?_⟩⟩
  intro hplain
  have hnone := hplain.changesState h
  exact ⟨hnone, fun operations hquiet count state =>
    Operations.evaluateTimes_eq (Operations.evaluate_still hquiet hnone) count state⟩

/-- Calls give the number of calls before them; any other node has the value of its first part. -/
def callCounter : Operations Nat Nat where
  truth value := value ≠ 0
  apply node values calls :=
    match node with
    | .call .. => (calls, calls + 1)
    | _ => (values.headD 0, calls)

theorem quiet_callCounter : callCounter.Quiet := by
  intro node values calls hnode
  cases node <;> first | rfl | cases hnode

/-- `m->rows[i] + 1`. -/
def pastRow : Node :=
  .binary "+" (.subscript (.member (.ident "m") "->" (.ident "rows")) (.ident "i")) (.constant "int" "1")

theorem pure_pastRow : pastRow.hasEffects = false ∧ pastRow.Plain ∧
    (∀ sub ∈ pastRow.visited, sub.changesState = false) ∧ ∀ count calls,
      callCounter.evaluateTimes pastRow count calls =
        (List.replicate count (callCounter.evaluate pastRow calls).1, calls) := by
  have hnone : pastRow.hasEffects = false := by decide
  have hplain : pastRow.Plain := by
    simp [Node.Plain, pastRow, Node.visited_eq, Node.visitedParts, Node.passedOver, Node.isIdent]
  obtain ⟨-, hpure⟩ := (pure_of_hasEffects pastRow).2 hnone
  obtain ⟨hstill, hsame⟩ := hpure hplain
  exact ⟨hnone, hplain, hstill, hsame callCounter quiet_callCounter⟩

/-- `(int[]){f()}[0]`. -/
def literalElement : Node :=
  .subscript
    (.compoundLiteral (.typename none (.array (.typeDecl none (.identifierType ["int"])) none))
      (.initList [.call (.ident "f") none]))
    (.constant "int" "0")

/-- `for (i = 0; i < (int[]){f()}[0]; i++) g(i);`. -/
def literalLoop : Node :=
  .forLoop (some (.assign "=" (.ident "i") (.constant "int" "0")))
    (some (.binary "<" (.ident "i") literalElement)) (some (.unary "p++" (.ident "i")))
    (.call (.ident "g") (some (.exprList [.ident "i"])))

/-- The call in a compound literal is not found, and as the bound of a range it is no longer made in every round. -/
theorem hasEffects_literalElement :
    literalElement.hasEffects = false ∧ .call (.ident "f") none ∈ literalElement.visited ∧
      (writeStmt {} .outermost false literalLoop).result.toOption.map Code.lines =
        some ["for i in range(0, [f()][0]):", "    g(i)"] ∧
      (callCounter.evaluateTimes literalElement 2 0).1 = [0, 1] := by
  refine ⟨by decide, ?_, by decide +kernel, ?_⟩
  · simp [literalElement, Node.visited_eq, Node.visitedParts]
  · simp [literalElement, Operations.evaluateTimes, Operations.evaluate, Node.visitedParts, callCounter]

end StubGen.CUnit
