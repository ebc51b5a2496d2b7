import StubGen.Proofs.Jump.Tree
import StubGen.Proofs.Loop.Test

/-!
# Integer variables

`integers` is the machine of integer variables: it evaluates expressions with their steps and assignments and runs
blocks, branches and jumps.  Calls do nothing, and what it does not know has the value zero.

* `Store.step` is what a step does to the variables.
* `Node.writes` says which nodes give a variable a value; `get_runInt` says that no others change it.
* `operatorsOfIntegers` are the laws of operators and steps.
-/

namespace StubGen.CUnit

/-- The values of the variables. -/
@[ext]
structure Store where
  get : String → Int

namespace Store

def set (name : String) (value : Int) (store : Store) : Store :=
  ⟨fun other => if other = name then value else store.get other⟩

@[simp] theorem get_set_same (name : String) (value : Int) (store : Store) : (store.set name value).get name = value :=
  if_pos rfl

theorem get_set_other {name other : String} (h : other ≠ name) (value : Int) (store : Store) :
    (store.set name value).get other = store.get other := if_neg h

theorem set_get (name : String) (store : Store) : store.set name (store.get name) = store := by
  ext other
  by_cases h : other = name
  · rw [h, get_set_same]
  · rw [get_set_other h]

theorem set_comm {first second : String} (h : first ≠ second) (a b : Int) (store : Store) :
    (store.set second b).set first a = (store.set first a).set second b := by
  ext other
  by_cases hfirst : other = first
  · subst hfirst
    rw [get_set_same, get_set_other h, get_set_same]
  · by_cases hsecond : other = second
    · subst hsecond
      rw [get_set_other hfirst, get_set_same, get_set_same]
    · rw [get_set_other hfirst, get_set_other hsecond, get_set_other hsecond, get_set_other hfirst]

end Store

/-- What a step adds to its variable. -/
def Step.amount (step : Step) : Int := if step.op ∈ ["++", "p++"] then 1 else -1

def Store.step (step : Step) (store : Store) : Store :=
  match step.operand with
  | .ident name => store.set name (store.get name + step.amount)
  | _ => store

def truthInt (holds : Bool) : Int := if holds then 1 else 0

/-- The value of an operation; those of bits and those of division are not among them. -/
def operation (op : String) (l r : Int) : Int :=
  if op = "+" then l + r
  else if op = "-" then l - r
  else if op = "*" then l * r
  else if op = "<" then truthInt (l < r)
  else if op = ">" then truthInt (l > r)
  else if op = "<=" then truthInt (l ≤ r)
  else if op = ">=" then truthInt (l ≥ r)
  else if op = "==" then truthInt (l = r)
  else if op = "!=" then truthInt (l ≠ r)
  else 0

/-- The value of an expression and the variables after it. -/
def evalInt : Node → Store → Int × Store
  | .ident name, store => (store.get name, store)
  | .unary op operand, store =>
    let value := evalInt operand store
    if Node.isStepOp op then
      (if Step.isPostfix ⟨op, operand⟩ then value.1 else value.1 + Step.amount ⟨op, operand⟩,
        value.2.step ⟨op, operand⟩)
    else (if op = "-" then -value.1 else if op = "!" then truthInt (value.1 = 0) else value.1, value.2)
  | .binary op left right, store =>
    let l := evalInt left store
    let r := evalInt right l.2
    if op ∈ ["&&", "||"] then
      if decide (l.1 ≠ 0) = (op = "&&") then (truthInt (r.1 ≠ 0), r.2) else (truthInt (l.1 ≠ 0), l.2)
    else (operation op l.1 r.1, r.2)
  | .assign op (.ident name) value, store =>
    let new := evalInt value store
    let result := if op = "=" then new.1 else operation (withoutEquals op) (new.2.get name) new.1
    (result, new.2.set name result)
  | expr, store => (expr.intValue?.getD 0, store)
termination_by structural expr => expr

mutual

/-- How a statement ends, and the variables after it. -/
def runInt : Node → Store → Outcome × Store
  | .block items, store => runInts items store
  | .ifElse cond whenTrue none, store =>
    let value := evalInt cond store
    if value.1 ≠ 0 then runInt whenTrue value.2 else (.normal, value.2)
  | .ifElse cond whenTrue (some whenFalse), store =>
    let value := evalInt cond store
    if value.1 ≠ 0 then runInt whenTrue value.2 else runInt whenFalse value.2
  | .breakJump, store => (.broke, store)
  | .continueJump, store => (.continued, store)
  | .returnJump none, store => (.returned, store)
  | .returnJump (some value), store => (.returned, (evalInt value store).2)
  | .decl (some name) _ _ _ (some init) _, store =>
    let value := evalInt init store
    (.normal, value.2.set name value.1)
  | stmt, store => (.normal, (evalInt stmt store).2)
termination_by structural stmt => stmt

/-- Runs statements one after the other, up to the first that does not end normally. -/
def runInts : List Node → Store → Outcome × Store
  | [], store => (.normal, store)
  | stmt :: rest, store =>
    let ended := runInt stmt store
    if ended.1 = .normal then runInts rest ended.2 else ended
termination_by structural stmts => stmts

end

/-- Whether the node gives the variable a value. -/
def Node.writes (name : String) : Node → Bool
  | .unary op operand => isStepOp op && operand.isVariable name
  | .assign _ target _ => target.isVariable name
  | .decl declared _ _ _ _ _ => declared = some name
  | _ => false

theorem evalInt_intValue {node : Node} {value : Int} (h : node.intValue? = some value) (store : Store) :
    evalInt node store = (value, store) := by
  cases node with
  | constant type text => simp [evalInt, h]
  | _ => cases h

/-- The machine of integer variables. -/
def integers : Machine Store Int where
  eval := evalInt
  truth value := value ≠ 0
  step := Store.step
  perform stmt store :=
    match stmt with
    | .declList [decl] => (runInt decl store).2
    | _ => (runInt stmt store).2
  exec := runInt
  eval_intValue h store := by
    rw [evalInt_intValue h]
    simp

/-! ### Values -/

private theorem Effectless.operand {op : String} {operand : Node} (h : Effectless (.unary op operand)) :
    Node.isStepOp op = false ∧ Effectless operand := by
  rw [Effectless, Node.subexprs, List.forall_mem_cons] at h
  exact h

private theorem Effectless.sides {op : String} {left right : Node} (h : Effectless (.binary op left right)) :
    Effectless left ∧ Effectless right := by
  rw [Effectless, Node.subexprs, List.forall_mem_cons, List.forall_mem_append] at h
  exact h.2

/-- Whether the expression uses the value of the variable. -/
def Node.reads (name : String) (expr : Node) : Prop := ∃ sub ∈ expr.subexprs, sub.isVariable name = true

theorem Node.reads_ident (name : String) : (Node.ident name).reads name :=
  ⟨.ident name, by rw [subexprs_ident]; exact List.mem_singleton_self _, by simp [isVariable]⟩

private theorem Node.reads_operand {name op : String} {operand : Node} (h : operand.reads name) :
    (Node.unary op operand).reads name := by
  obtain ⟨sub, hsub, hvariable⟩ := h
  exact ⟨sub, by rw [subexprs]; exact List.mem_cons_of_mem _ hsub, hvariable⟩

private theorem Node.reads_side {name op : String} {left right : Node} (h : left.reads name ∨ right.reads name) :
    (Node.binary op left right).reads name := by
  rcases h with ⟨sub, hsub, hvariable⟩ | ⟨sub, hsub, hvariable⟩
  · exact ⟨sub, by rw [subexprs]; exact List.mem_cons_of_mem _ (List.mem_append_left _ hsub), hvariable⟩
  · exact ⟨sub, by rw [subexprs]; exact List.mem_cons_of_mem _ (List.mem_append_right _ hsub), hvariable⟩

private theorem evalInt_sides (op : String) {left right : Node} {store : Store} {l r : Int}
    (hl : evalInt left store = (l, store)) (hr : evalInt right store = (r, store)) :
    evalInt (.binary op left right) store =
      (if op ∈ ["&&", "||"] then
        if decide (l ≠ 0) = (op = "&&") then truthInt (r ≠ 0) else truthInt (l ≠ 0)
      else operation op l r, store) := by
  simp only [evalInt, hl, hr]
  split
  · split <;> rfl
  · rfl

/-- The value of an expression that changes nothing depends on the variables that it reads only. -/
theorem evalInt_effectless {expr : Node} (h : Effectless expr) {first second : Store}
    (hsame : ∀ name, expr.reads name → first.get name = second.get name) :
    evalInt expr second = ((evalInt expr first).1, second) := by
  induction expr, first using evalInt.induct generalizing second with
  | case1 name store => rw [evalInt, evalInt, hsame name (Node.reads_ident name)]
  | case2 op operand store hstep _ =>
    rw [h.operand.1] at hstep
    cases hstep
  | case3 op operand store hstep ih =>
    have hoperand := ih h.operand.2 fun name hname => hsame name (Node.reads_operand hname)
    rw [evalInt, evalInt, hoperand]
    simp only [if_neg hstep]
  | case4 op left right store _ _ _ ihl ihr | case5 op left right store _ _ _ ihl ihr
  | case6 op left right store _ _ ihl ihr =>
    have hstill : (evalInt left store).2 = store := congrArg Prod.snd (ihl h.sides.1 fun _ _ => rfl)
    rw [hstill] at ihr
    have hfirst := evalInt_sides op (ihl h.sides.1 fun _ _ => rfl) (ihr h.sides.2 fun _ _ => rfl)
    have hsecond := evalInt_sides op (ihl h.sides.1 fun name hname => hsame name (Node.reads_side (Or.inl hname)))
      (ihr h.sides.2 fun name hname => hsame name (Node.reads_side (Or.inr hname)))
    rw [hsecond, hfirst]
  | case7 op name value store _ =>
    rw [Effectless, Node.subexprs, List.forall_mem_cons] at h
    cases h.1
  | case8 expr store => rw [evalInt, evalInt] <;> assumption

/-! ### What changes variables -/

variable {name : String}

theorem Store.get_step {step : Step} {store : Store} (h : step.operand.isVariable name = false) :
    (store.step step).get name = store.get name := by
  rw [Store.step]
  split
  · rename_i other hother
    have hne : name ≠ other := by
      rintro rfl
      simp [hother, Node.isVariable] at h
    exact Store.get_set_other hne _ store
  · rfl

/-- Steps of different variables do not matter to each other. -/
theorem Store.step_comm {first second : String} (op op' : String) (store : Store) (h : first ≠ second) :
    (store.step ⟨op', .ident second⟩).step ⟨op, .ident first⟩ =
      (store.step ⟨op, .ident first⟩).step ⟨op', .ident second⟩ := by
  have hfirst : (store.step ⟨op', .ident second⟩).get first = store.get first :=
    get_step (by simpa [Node.isVariable] using h.symm)
  have hsecond : (store.step ⟨op, .ident first⟩).get second = store.get second :=
    get_step (by simpa [Node.isVariable] using h)
  calc (store.step ⟨op', .ident second⟩).step ⟨op, .ident first⟩
    _ = (store.step ⟨op', .ident second⟩).set first
        ((store.step ⟨op', .ident second⟩).get first + Step.amount ⟨op, .ident first⟩) := rfl
    _ = (store.step ⟨op, .ident first⟩).set second
        ((store.step ⟨op, .ident first⟩).get second + Step.amount ⟨op', .ident second⟩) := by
      rw [hfirst, hsecond]
      exact set_comm h _ _ store
    _ = (store.step ⟨op, .ident first⟩).step ⟨op', .ident second⟩ := rfl

theorem get_evalInt {expr : Node} (h : Everywhere (·.writes name = false) expr) (store : Store) :
    (evalInt expr store).2.get name = store.get name := by
  induction expr, store using evalInt.induct with
  | case1 => rfl
  | case2 op operand store hstep ih =>
    have hoperand : operand.isVariable name = false := by simpa [Node.writes, hstep] using h.self
    rw [evalInt]
    simp only [if_pos hstep]
    rw [Store.get_step hoperand]
    exact ih (h.parts operand (by simp [Node.parts]))
  | case3 op operand store hstep ih =>
    rw [evalInt]
    simp only [if_neg hstep]
    exact ih (h.parts operand (by simp [Node.parts]))
  | case4 op left right store _ hlazy hright ihl ihr =>
    rw [evalInt, if_pos hlazy, if_pos hright]
    exact (ihr (h.parts right (by simp [Node.parts]))).trans (ihl (h.parts left (by simp [Node.parts])))
  | case5 op left right store _ hlazy hright ihl _ =>
    rw [evalInt, if_pos hlazy, if_neg hright]
    exact ihl (h.parts left (by simp [Node.parts]))
  | case6 op left right store _ hlazy ihl ihr =>
    rw [evalInt, if_neg hlazy]
    exact (ihr (h.parts right (by simp [Node.parts]))).trans (ihl (h.parts left (by simp [Node.parts])))
  | case7 op other value store ih =>
    have hne : name ≠ other := by
      have hself := h.self
      rintro rfl
      simp [Node.writes, Node.isVariable] at hself
    rw [evalInt, Store.get_set_other hne]
    exact ih (h.parts value (by simp [Node.parts]))
  | case8 expr store =>
    rw [evalInt] <;> first | rfl | assumption

/-- A statement changes no variable that it does not write. -/
theorem get_runInt {stmt : Node} (h : Everywhere (·.writes name = false) stmt) (store : Store) :
    (runInt stmt store).2.get name = store.get name := by
  revert h
  apply runInt.induct
    (fun stmt store => Everywhere (·.writes name = false) stmt → (runInt stmt store).2.get name = store.get name)
    (fun stmts store => (∀ stmt ∈ stmts, Everywhere (·.writes name = false) stmt) →
      (runInts stmts store).2.get name = store.get name)
  all_goals intros
  case case1 ih h => exact ih h.parts
  case case2 cond whenTrue store _ htrue ih h =>
    rw [runInt, if_pos htrue, ih (h.parts whenTrue (by simp [Node.parts]))]
    exact get_evalInt (h.parts cond (by simp [Node.parts])) store
  case case3 cond whenTrue store _ hfalse h =>
    rw [runInt, if_neg hfalse]
    exact get_evalInt (h.parts cond (by simp [Node.parts])) store
  case case4 cond whenTrue whenFalse store _ htrue ih h =>
    rw [runInt, if_pos htrue, ih (h.parts whenTrue (by simp [Node.parts]))]
    exact get_evalInt (h.parts cond (by simp [Node.parts])) store
  case case5 cond whenTrue whenFalse store _ hfalse ih h =>
    rw [runInt, if_neg hfalse, ih (h.parts whenFalse (by simp [Node.parts]))]
    exact get_evalInt (h.parts cond (by simp [Node.parts])) store
  case case9 value store h => exact get_evalInt (h.parts value (by simp [Node.parts])) store
  case case10 other _ _ _ init _ store h =>
    have hne : name ≠ other := by
      have hself := h.self
      rintro rfl
      simp [Node.writes] at hself
    rw [runInt, Store.get_set_other hne]
    exact get_evalInt (h.parts init (by simp [Node.parts])) store
  case case11 stmt store _ _ _ _ _ _ _ _ h =>
    rw [runInt]
    · exact get_evalInt h store
    all_goals assumption
  case case13 stmt rest store _ hnormal ih ihrest h =>
    rw [runInts, if_pos hnormal, ihrest fun stmt hstmt => h stmt (List.mem_cons_of_mem _ hstmt)]
    exact ih (h stmt (List.mem_cons_self ..))
  case case14 stmt rest store _ hended ih h =>
    rw [runInts, if_neg hended]
    exact ih (h stmt (List.mem_cons_self ..))
  all_goals rfl

/-! ### Laws -/

theorem evalInt_prefix {op : String} (hop : op ∈ ["++", "--"]) (name : String) (store : Store) :
    evalInt (.unary op (.ident name)) store =
      ((store.step ⟨op, .ident name⟩).get name, store.step ⟨op, .ident name⟩) := by
  have hops : ∀ op ∈ ["++", "--"], Node.isStepOp op = true ∧ op.startsWith "p" = false := by decide +kernel
  obtain ⟨hstep, hmark⟩ := hops op hop
  have hform : Step.isPostfix ⟨op, .ident name⟩ = false := hmark
  rw [evalInt, if_pos hstep, hform]
  simp [evalInt, Store.step]

theorem evalInt_postfix {op : String} (hop : op ∈ ["p++", "p--"]) (name : String) (store : Store) :
    evalInt (.unary op (.ident name)) store = (store.get name, store.step ⟨op, .ident name⟩) := by
  have hops : ∀ op ∈ ["p++", "p--"], Node.isStepOp op = true ∧ op.startsWith "p" = true := by decide +kernel
  obtain ⟨hstep, hmark⟩ := hops op hop
  have hform : Step.isPostfix ⟨op, .ident name⟩ = true := hmark
  rw [evalInt, if_pos hstep, hform]
  simp [evalInt]

/-- Integer variables know the operators of tests. -/
def operatorsOfIntegers : integers.Operators where
  combine := operation
  ofBool := truthInt
  eval_strict left right store hop := by
    change evalInt _ store = _
    rw [evalInt, if_neg hop]
    rfl
  eval_lazy left right store hop := by
    change evalInt _ store = _
    rw [evalInt, if_pos hop]
    rfl
  eval_step name store hop := evalInt_prefix hop name store
  eval_effectless store h := congrArg Prod.snd (evalInt_effectless h fun _ _ => rfl)
  eval_unused {expr name} op store h hunused := by
    have hsame : ∀ other, expr.reads other → store.get other = (store.step ⟨op, .ident name⟩).get other := by
      rintro other ⟨sub, hsub, hvariable⟩
      have hne : name ≠ other := by
        rintro rfl
        rw [hunused sub hsub] at hvariable
        cases hvariable
      exact (Store.get_step (by simpa [Node.isVariable] using hne)).symm
    change (evalInt expr (store.step ⟨op, .ident name⟩)).1 = (evalInt expr store).1
    rw [evalInt_effectless h hsame]

end StubGen.CUnit
