import StubGen.Proofs.Expression.Literal
import StubGen.Proofs.Loop.Integers
import StubGen.Proofs.Loop.Lowering

/-!
# Loops over ranges

A loop that counts runs over a range.  The range is computed once, while the loop of the source evaluates its test and
steps its counter in every round.  Both start the body in the same states, provided that the body changes neither the
counter nor what the bound reads (`alike_runRange`).  Nothing but the header of the loop is examined, so the body may
change them (`entries_shrinkingRange`).

* `Direction.range` gives the values of a range, and `Machine.Variables.runRange` runs a loop over it.
* `Machine.Variables` are the laws of integer variables, and `Alike` compares runs but for the counter.
* `Steady` says that a round keeps the counter and the bound; `alike_runValues` is the induction on the rounds.
-/

namespace StubGen.CUnit

open Traced

/-! ### Values of ranges -/

namespace Direction

/-- Numbers from a start on. -/
def values (direction : Direction) (start : Int) : Nat → List Int
  | 0 => []
  | count + 1 => start :: values direction (start + direction.step) count

/-- How many numbers there are up to the stop of a range. -/
def count (direction : Direction) (start stop : Int) : Nat := (direction.step * (stop - start)).toNat

/-- The values of a range: from its start on, in steps of one, and without its stop. -/
def range (direction : Direction) (start stop : Int) : List Int := direction.values start (direction.count start stop)

theorem length_values (direction : Direction) (start : Int) (count : Nat) :
    (direction.values start count).length = count := by
  induction count generalizing start with
  | zero => rfl
  | succ count ih => rw [values, List.length_cons, ih]

/-- A step leaves one value less. -/
theorem count_step {direction : Direction} {start stop : Int} {rest : Nat}
    (h : direction.count start stop = rest + 1) : direction.count (start + direction.step) stop = rest := by
  have hstep : direction.step * (stop - (start + direction.step)) = direction.step * (stop - start) - 1 := by
    cases direction <;> simp only [step] <;> omega
  rw [count] at h ⊢
  omega

/-- Where the range stops, from the value of the bound. -/
def stop (direction : Direction) (inclusive : Bool) (bound : Int) : Int :=
  if inclusive then bound + direction.step else bound

end Direction

/-! ### Laws -/

/-- The result of a comparison. -/
def comparison (op : String) (l r : Int) : Bool :=
  if op = "<" then l < r else if op = "<=" then l ≤ r else if op = ">" then l > r else l ≥ r

/-- What an assignment stores. -/
def assigned (op : String) (old new : Int) : Int :=
  if op = "=" then new else if op = "+=" then old + new else old - new

/-- How a machine treats integer variables.  The value of an expression without effects depends on the variables in it,
and a statement changes no variable that it does not write. -/
structure Machine.Variables {σ V : Type} (machine : Machine σ V) extends machine.Operators where
  get : String → σ → Int
  set : String → Int → σ → σ
  number : V → Int
  get_set : ∀ name value state, get name (set name value state) = value
  get_set_other : ∀ {name other} value state, other ≠ name → get other (set name value state) = get other state
  set_get : ∀ name state, set name (get name state) state = state
  eval_variable : ∀ name state, number (machine.eval (.ident name) state).1 = get name state
  eval_constant : ∀ {node value} state, node.intValue? = some value → number (machine.eval node state).1 = value
  eval_reads : ∀ {expr first second}, Effectless expr → (∀ name, expr.reads name → get name first = get name second) →
    number (machine.eval expr first).1 = number (machine.eval expr second).1
  truth_compared : ∀ {op} l r, op ∈ ["<", "<=", ">", ">="] →
    machine.truth (combine op l r) = comparison op (number l) (number r)
  number_sum : ∀ l r, number (combine "+" l r) = number l + number r
  number_difference : ∀ l r, number (combine "-" l r) = number l - number r
  perform_step : ∀ {op} name state, Node.isStepOp op = true →
    machine.perform (.unary op (.ident name)) state = set name (get name state + Step.amount ⟨op, .ident name⟩) state
  perform_assign : ∀ {op} name value state, op ∈ ["=", "+=", "-="] →
    machine.perform (.assign op (.ident name) value) state =
      let (new, after) := machine.eval value state
      set name (assigned op (get name after) (number new)) after
  perform_decl : ∀ name quals storage type value width state,
    machine.perform (.declList [.decl (some name) quals storage type (some value) width]) state =
      let (new, after) := machine.eval value state
      set name (number new) after
  exec_frame : ∀ {body name} state, Everywhere (·.writes name = false) body →
    get name (machine.exec body state).2 = get name state

/-! ### Bounds -/

/-- Whether the node is the initializer of an object of its own. -/
def Node.isInitializer : Node → Bool
  | .compoundLiteral .. | .designated .. => true
  | _ => false

/-- The expressions change no state. -/
def AreEffectless (exprs : List Node) : Prop := ∀ sub ∈ subexprsOf exprs, sub.changesState = false

/-- The guard of a bound finds all effects outside of initializers. -/
theorem effectless_of_hasEffects {expr : Node} (h : expr.hasEffects = false)
    (hplain : ∀ sub ∈ expr.subexprs, sub.isInitializer = false) : Effectless expr := by
  revert h hplain
  apply Node.hasEffects.induct
    (fun expr => expr.hasEffects = false → (∀ sub ∈ expr.subexprs, sub.isInitializer = false) → Effectless expr)
    (fun exprs => Node.anyHasEffects exprs = false → (∀ sub ∈ subexprsOf exprs, sub.isInitializer = false) →
      AreEffectless exprs)
  all_goals
    intros
    rename_i h hplain
  case case2 => cases h
  case case5 => cases h
  case case11 expr hunary hassign hbinary hternary hcall hsubscript hmember hcast hlist hinit =>
    -- only initializers have parts that are not examined
    cases expr
    case unary => cases hunary _ _ rfl
    case assign => cases hassign _ _ _ rfl
    case binary => cases hbinary _ _ _ rfl
    case ternary => cases hternary _ _ _ rfl
    case call => cases hcall _ _ rfl
    case subscript => cases hsubscript _ _ rfl
    case member => cases hmember _ _ _ rfl
    case cast => cases hcast _ _ rfl
    case exprList => cases hlist _ rfl
    case initList => cases hinit _ rfl
    case compoundLiteral => cases hplain _ (by rw [Node.subexprs]; exact List.mem_cons_self ..)
    case designated => cases hplain _ (by rw [Node.subexprs]; exact List.mem_cons_self ..)
    all_goals
      intro sub hsub
      rw [List.mem_singleton.mp hsub]
      rfl
  case case12 =>
    intro sub hsub
    cases hsub
  case case13 ih ihrest =>
    rw [Node.anyHasEffects, Bool.or_eq_false_iff] at h
    rw [subexprsOf, List.forall_mem_append] at hplain
    rw [AreEffectless, subexprsOf, List.forall_mem_append]
    exact ⟨ih h.1 hplain.1, ihrest h.2 hplain.2⟩
  all_goals
    simp only [Node.hasEffects, Bool.or_eq_false_iff] at h
    simp only [Node.subexprs, List.forall_mem_cons, List.forall_mem_append] at hplain
    simp only [Effectless, Node.subexprs, List.forall_mem_cons, List.forall_mem_append]
  case case1 ih => exact ⟨h.1, ih h.2 hplain.2⟩
  case case3 ihl ihr => exact ⟨rfl, ihl h.1 hplain.2.1, ihr h.2 hplain.2.2⟩
  case case4 ihc iht ihf => exact ⟨rfl, ⟨ihc h.1.1 hplain.2.1.1, iht h.1.2 hplain.2.1.2⟩, ihf h.2 hplain.2.2⟩
  case case6 ihb ihi => exact ⟨rfl, ihb h.1 hplain.2.1, ihi h.2 hplain.2.2⟩
  case case7 ih => exact ⟨rfl, ih h hplain.2⟩
  case case8 ih => exact ⟨rfl, ih h hplain.2⟩
  case case9 ih => exact ⟨rfl, ih h hplain.2⟩
  case case10 ih => exact ⟨rfl, ih h hplain.2⟩

theorem effectless_rangeBound {direction : Direction} {inclusive : Bool} {bound : Node} (h : Effectless bound) :
    Effectless (rangeBound direction inclusive bound) := by
  have hnumber : ∀ text, Effectless (.constant "int" text) := by
    intro text sub hsub
    rw [List.mem_singleton.mp hsub]
    rfl
  have hmoved : ∀ op, Effectless (.binary op bound (.constant "int" "1")) := by
    intro op
    rw [Effectless, Node.subexprs, List.forall_mem_cons, List.forall_mem_append]
    exact ⟨rfl, h, hnumber "1"⟩
  unfold rangeBound
  split
  · exact h
  · split
    · exact hnumber _
    · exact hmoved "+"
    · exact hmoved "-"

/-! ### Headers -/

theorem eq_ident_of_isVariable {name : String} {node : Node} (h : node.isVariable name = true) :
    node = .ident name := by
  cases node with
  | ident other =>
    have hname : other = name := by simpa [Node.isVariable] using h
    rw [hname]
  | _ => cases h

/-- What the parts of the header of a counting loop are. -/
theorem counting?_ok {init left bound next : Node} {op : String} {loop : Counting}
    (h : counting? init (.binary op left bound) next = some loop) :
    ∃ inclusive, induction? init = some (loop.counter, loop.start) ∧
      directionOf? loop.counter next = some loop.direction ∧ left = .ident loop.counter ∧ bound.hasEffects = false ∧
      inclusive? loop.direction op = some inclusive ∧ loop.bound = rangeBound loop.direction inclusive bound := by
  simp only [counting?, Option.bind_eq_bind, Option.bind_eq_some_iff] at h
  obtain ⟨⟨counter, start⟩, hinit, direction, hdirection, h⟩ := h
  split at h
  · cases h
  · rename_i hguard
    obtain ⟨inclusive, hinclusive, h⟩ := Option.bind_eq_some_iff.mp h
    cases h
    rw [Bool.or_eq_true, not_or, Bool.not_eq_true, Bool.not_eq_true, Bool.not_eq_false'] at hguard
    obtain ⟨hleft, heffects⟩ := hguard
    exact ⟨inclusive, hinit, hdirection, eq_ident_of_isVariable hleft, heffects, hinclusive, rfl⟩

/-- A step of a counting loop adds one to its counter, or takes one off. -/
theorem directionOf?_ok {counter : String} {next : Node} {direction : Direction}
    (h : directionOf? counter next = some direction) :
    (∃ op, next = .unary op (.ident counter) ∧ Node.isStepOp op = true ∧
      Step.amount ⟨op, .ident counter⟩ = direction.step) ∨
    ∃ op value, next = .assign op (.ident counter) value ∧ value.intValue? = some 1 ∧ op ∈ ["=", "+=", "-="] ∧
      ∀ old, assigned op old 1 = old + direction.step := by
  unfold directionOf? at h
  split at h
  · rename_i op operand
    split at h
    · cases h
    · rename_i hvariable
      obtain rfl := eq_ident_of_isVariable (by simpa using hvariable)
      refine Or.inl ⟨op, rfl, ?_⟩
      split at h
      · rename_i hop
        cases h
        rcases hop with rfl | rfl <;> exact ⟨by decide, by simp [Step.amount, Direction.step]⟩
      · split at h
        · rename_i hop
          cases h
          rcases hop with rfl | rfl <;> exact ⟨by decide, by simp [Step.amount, Direction.step]⟩
        · cases h
  · rename_i op target value
    split at h
    · cases h
    · rename_i hguard
      rw [Bool.or_eq_true, not_or, Bool.not_eq_true, Bool.not_eq_false', decide_eq_true_eq, Decidable.not_not] at hguard
      obtain ⟨hvariable, hone⟩ := hguard
      obtain rfl := eq_ident_of_isVariable hvariable
      refine Or.inr ⟨op, value, rfl, hone, ?_⟩
      split at h
      · rename_i hop
        cases h
        subst hop
        exact ⟨by decide, fun _ => rfl⟩
      · split at h
        · rename_i hop
          cases h
          subst hop
          exact ⟨by decide, fun _ => rfl⟩
        · cases h
  · cases h

/-- A comparison holds as long as the range has values left. -/
theorem comparison_inclusive {direction : Direction} {op : String} {inclusive : Bool}
    (h : inclusive? direction op = some inclusive) :
    op ∉ ["&&", "||"] ∧ op ∈ ["<", "<=", ">", ">="] ∧ ∀ value bound : Int,
      comparison op value bound = decide (0 < direction.count value (direction.stop inclusive bound)) := by
  have hops : direction = .up ∧ (op = "<" ∧ inclusive = false ∨ op = "<=" ∧ inclusive = true) ∨
      direction = .down ∧ (op = ">" ∧ inclusive = false ∨ op = ">=" ∧ inclusive = true) := by
    cases direction <;> simp only [inclusive?] at h <;> split at h <;> simp_all
  rcases hops with ⟨rfl, ⟨rfl, rfl⟩ | ⟨rfl, rfl⟩⟩ | ⟨rfl, ⟨rfl, rfl⟩ | ⟨rfl, rfl⟩⟩
  all_goals
    refine ⟨by decide, by decide, fun value bound => ?_⟩
    simp only [comparison, Direction.count, Direction.stop, Direction.step, String.reduceEq, Bool.false_eq_true,
      ↓reduceIte]
    rw [decide_eq_decide]
    omega

namespace Machine.Variables

variable {σ V : Type} {machine : Machine σ V} (laws : machine.Variables)

theorem perform_induction {init start : Node} {counter : String} (h : induction? init = some (counter, start))
    (state : σ) : machine.perform init state =
      laws.set counter (laws.number (machine.eval start state).1) (machine.eval start state).2 := by
  unfold induction? at h
  split at h
  · rename_i op name value
    split at h
    · rename_i hop
      cases h
      subst hop
      exact laws.perform_assign counter start state (by decide)
    · cases h
  · cases h
    exact laws.perform_decl counter _ _ _ start _ state
  · cases h

theorem perform_direction {next : Node} {counter : String} {direction : Direction}
    (h : directionOf? counter next = some direction) (state : σ) :
    machine.perform next state = laws.set counter (laws.get counter state + direction.step) state := by
  rcases directionOf?_ok h with ⟨op, rfl, hstep, hamount⟩ | ⟨op, value, rfl, hone, hop, hassigned⟩
  · rw [laws.perform_step counter state hstep, hamount]
  · have hvalue := laws.eval_constant state hone
    have hstill := (machine.eval_intValue hone state).2
    rw [laws.perform_assign counter value state hop]
    simp only [hvalue, hstill, hassigned]

/-- The stop of a range is the bound, moved by one if the loop reaches it. -/
theorem number_rangeBound (direction : Direction) (inclusive : Bool) (bound : Node) (state : σ) :
    laws.number (machine.eval (rangeBound direction inclusive bound) state).1 =
      direction.stop inclusive (laws.number (machine.eval bound state).1) := by
  have hone : ∀ state, laws.number (machine.eval (.constant "int" "1") state).1 = 1 :=
    fun state => laws.eval_constant state (by decide)
  cases inclusive with
  | false => rfl
  | true =>
    unfold rangeBound Direction.stop
    simp only [Bool.not_true, Bool.false_eq_true, ↓reduceIte]
    split
    · rename_i value hvalue
      obtain ⟨old, hold, hfits⟩ := Option.bind_eq_some_iff.mp hvalue
      obtain ⟨hint, rfl⟩ := int64?_eq_some_iff.mp hfits
      rw [laws.eval_constant state (intValue?_toString hint), laws.eval_constant state hold]
    · rw [laws.eval_strict bound _ state (by decide)]
      simp only [laws.number_sum, hone]
      rfl
    · rw [laws.eval_strict bound _ state (by decide)]
      simp only [laws.number_difference, hone]
      rfl

/-- A test of a counting loop holds as long as there are values left. -/
theorem truth_test {direction : Direction} {op : String} {inclusive : Bool}
    (hop : inclusive? direction op = some inclusive) {counter : String} {bound : Node} (h : Effectless bound)
    (state : σ) :
    machine.truth (machine.eval (.binary op (.ident counter) bound) state).1 =
        decide (0 < direction.count (laws.get counter state)
          (direction.stop inclusive (laws.number (machine.eval bound state).1))) ∧
      (machine.eval (.binary op (.ident counter) bound) state).2 = state := by
  have hleft := laws.eval_effectless state (effectless_ident counter)
  have hright := laws.eval_effectless state h
  obtain ⟨hstrict, hcompared, hcount⟩ := comparison_inclusive hop
  have hvalue := laws.eval_variable counter state
  obtain ⟨l, hl⟩ : ∃ l, machine.eval (.ident counter) state = (l, state) := ⟨_, Prod.ext rfl hleft⟩
  obtain ⟨r, hr⟩ : ∃ r, machine.eval bound state = (r, state) := ⟨_, Prod.ext rfl hright⟩
  rw [hl] at hvalue
  rw [laws.eval_strict _ _ _ hstrict, hl]
  simp only [hr]
  exact ⟨by rw [laws.truth_compared _ _ hcompared, hvalue, hcount], trivial⟩

/-! ### Rounds -/

/-- Runs the body of a loop once for each value of its counter. -/
def runValues (counter : String) (body : Node) : List Int → σ → Run σ
  | [], state => .done .normal state
  | value :: rest, state =>
    (machine.runBody body (laws.set counter value state)).thenAgain (runValues counter body rest)

/-- The values of the range of a loop. -/
def rangeOf (loop : Counting) (state : σ) : List Int :=
  let start := machine.eval loop.start state
  loop.direction.range (laws.number start.1) (laws.number (machine.eval loop.bound start.2).1)

/-- Runs the body of a loop over its range, whose start and stop are evaluated once. -/
def runRange (loop : Counting) (body : Node) (state : σ) : Run σ :=
  laws.runValues loop.counter body (laws.rangeOf loop state)
    (machine.eval loop.bound (machine.eval loop.start state).2).2

/-- The first run starts the body in the same states as the second one and ends as it does, but for the counter. -/
def Alike (counter : String) (first second : Run σ) : Prop :=
  first.entries = second.entries ∧ ∃ outcome final value,
    second.ending = some (outcome, final) ∧ first.ending = some (outcome, laws.set counter value final)

/-- The body changes neither the counter nor the value of the bound, which does not depend on the counter. -/
structure Steady (counter : String) (bound body : Node) : Prop where
  effectless : Effectless bound
  counter_exec : ∀ state, laws.get counter (machine.exec body state).2 = laws.get counter state
  bound_exec : ∀ state,
    laws.number (machine.eval bound (machine.exec body state).2).1 = laws.number (machine.eval bound state).1
  bound_set : ∀ value state,
    laws.number (machine.eval bound (laws.set counter value state)).1 = laws.number (machine.eval bound state).1

variable {laws} {counter : String}

/-- A test is no run of the body. -/
theorem Alike.after_test {first second : Run σ} (h : laws.Alike counter first second) (holds : Bool) (state : σ) :
    laws.Alike counter (Run.after [.test holds state] first) second := h

theorem Alike.thenAgain {body : Node} {before : σ} {again again' : σ → Run σ}
    (h : laws.Alike counter (again (machine.exec body before).2) (again' (machine.exec body before).2)) :
    laws.Alike counter ((machine.runBody body before).thenAgain again)
      ((machine.runBody body before).thenAgain again') := by
  rw [Machine.runBody]
  generalize machine.exec body before = ended at h
  obtain ⟨outcome, state⟩ := ended
  -- a loop that is left keeps its counter
  have hkept : ∀ outcome : Outcome,
      some (outcome, state) = some (outcome, laws.set counter (laws.get counter state) state) :=
    fun outcome => by rw [laws.set_get]
  cases outcome with
  | normal | continued =>
    obtain ⟨hentries, hending⟩ := h
    exact ⟨congrArg (before :: ·) hentries, hending⟩
  | broke => exact ⟨rfl, .normal, state, laws.get counter state, rfl, hkept .normal⟩
  | returned => exact ⟨rfl, .returned, state, laws.get counter state, rfl, hkept .returned⟩

/-- The test of a loop that counts, as long as the range has its stop. -/
theorem testThen?_counter {direction : Direction} {inclusive : Bool} {op : String} {bound body : Node}
    (hop : inclusive? direction op = some inclusive) (hsteady : laws.Steady counter bound body) {stop value : Int}
    {state : σ} (next : Bool → σ → Run σ)
    (hstop : direction.stop inclusive (laws.number (machine.eval bound state).1) = stop) :
    machine.testThen? (some (.binary op (.ident counter) bound)) (laws.set counter value state) next =
      Run.after [.test (0 < direction.count value stop) (laws.set counter value state)]
        (next (0 < direction.count value stop) (laws.set counter value state)) := by
  obtain ⟨htruth, hstill⟩ := laws.truth_test hop hsteady.effectless (laws.set counter value state)
  rw [laws.get_set, hsteady.bound_set, hstop] at htruth
  have hevent : (Node.binary op (.ident counter) bound).intValue? = none := rfl
  rw [Machine.testThen?, Machine.testThen, hevent]
  simp only [htruth, hstill]
  rfl

/-- A loop that counts runs its body once for each value that is left of the range. -/
theorem alike_runValues {direction : Direction} {inclusive : Bool} {op : String} {bound next body : Node}
    (hop : inclusive? direction op = some inclusive) (hnext : directionOf? counter next = some direction)
    (hsteady : laws.Steady counter bound body) {stop : Int} {count fuel : Nat} (hfuel : count ≤ fuel) {value : Int}
    (hcount : direction.count value stop = count) {state : σ}
    (hstop : direction.stop inclusive (laws.number (machine.eval bound state).1) = stop) :
    laws.Alike counter
      (machine.runFor (some (.binary op (.ident counter) bound)) (some next) body fuel (laws.set counter value state))
      (laws.runValues counter body (direction.values value count) state) := by
  induction count generalizing fuel value state with
  | zero =>
    have hdone : decide (0 < direction.count value stop) = false := by rw [hcount]; rfl
    refine ⟨?_, .normal, state, value, rfl, ?_⟩ <;>
    · cases fuel <;> rw [Machine.runFor, testThen?_counter hop hsteady _ hstop, hdone] <;> rfl
  | succ count ih =>
    obtain ⟨fuel, rfl⟩ : ∃ rest, fuel = rest + 1 := ⟨fuel - 1, by omega⟩
    have hgoes : decide (0 < direction.count value stop) = true := by rw [hcount]; rfl
    rw [Machine.runFor, testThen?_counter hop hsteady _ hstop, hgoes, Direction.values, runValues]
    refine (Alike.thenAgain ?_).after_test true _
    -- the body has kept the counter, so the next round starts with the next value
    have hkept := hsteady.counter_exec (laws.set counter value state)
    rw [laws.get_set] at hkept
    rw [Machine.performAll, Option.map_some, Option.getD_some, laws.perform_direction hnext, hkept]
    refine ih (by omega) (Direction.count_step hcount) ?_
    rw [hsteady.bound_exec, hsteady.bound_set, hstop]

theorem steady_of_unwritten {bound body : Node} (heffectless : Effectless bound) (hreads : ¬bound.reads counter)
    (hcounter : Everywhere (·.writes counter = false) body)
    (hbody : ∀ name, bound.reads name → Everywhere (·.writes name = false) body) : laws.Steady counter bound body where
  effectless := heffectless
  counter_exec state := laws.exec_frame state hcounter
  bound_exec state := laws.eval_reads heffectless fun name hname => laws.exec_frame state (hbody name hname)
  bound_set value state := by
    refine laws.eval_reads heffectless fun name hname => laws.get_set_other value state ?_
    rintro rfl
    exact hreads hname

end Machine.Variables

/-! ### Counting loops -/

/-- The output of a counting loop starts its body in the same states as the loop and ends as it does, but for the
counter, if the bound does not read the counter and the body writes neither the counter nor a variable of the bound. -/
theorem alike_runRange (options : UnitOptions) (context : Context) (after : Bool) {init left bound next body : Node}
    {op : String} {code : List Code} {loop : Counting} (hloop : counting? init (.binary op left bound) next = some loop)
    (h : (writeStmt options context after
      (.forLoop (some init) (some (.binary op left bound)) (some next) body)).result = .ok code) :
    ∃ header bodyCode, (countingHeader options.reduceParentheses loop).result = .ok header ∧
      (writeStmt options context.enterLoop false body).result = .ok bodyCode ∧
      code = elseCode after [.suite header (Code.orPass bodyCode)] ∧
      ∀ {σ V : Type} (machine : Machine σ V) (laws : machine.Variables),
        (∀ sub ∈ bound.subexprs, sub.isInitializer = false) → ¬bound.reads loop.counter →
        Everywhere (·.writes loop.counter = false) body →
        (∀ name, bound.reads name → Everywhere (·.writes name = false) body) →
        ∀ fuel state, (laws.rangeOf loop state).length ≤ fuel →
          laws.Alike loop.counter
            ((SourceLoop.forLoop (some init) (some (.binary op left bound)) (some next) body).run machine fuel state)
            (laws.runRange loop body state) := by
  rw [writeStmt_forLoop] at h
  obtain ⟨lowered, hlowered, h⟩ := bind_eq_ok.mp h
  cases h
  have hcounting : (do counting? (← some init) (← some (.binary op left bound)) (← some next)) = some loop := hloop
  rw [writeFor, hcounting] at hlowered
  obtain ⟨header, hheader, hlowered⟩ := bind_eq_ok.mp hlowered
  obtain ⟨bodyCode, hbodyCode, hlowered⟩ := bind_eq_ok.mp hlowered
  cases hlowered
  refine ⟨header, bodyCode, hheader, hbodyCode, rfl, ?_⟩
  intro σ V machine laws hplain hreads hcounter hbody fuel state hfuel
  obtain ⟨inclusive, hinit, hnext, rfl, heffects, hop, hbound⟩ := counting?_ok hloop
  have heffectless := effectless_of_hasEffects heffects hplain
  have hsteady : laws.Steady loop.counter bound body := laws.steady_of_unwritten heffectless hreads hcounter hbody
  have hstill : ∀ state, (machine.eval loop.bound state).2 = state := by
    rw [hbound]
    exact fun state => laws.eval_effectless state (effectless_rangeBound heffectless)
  have hstop : ∀ state, laws.number (machine.eval loop.bound state).1 =
      loop.direction.stop inclusive (laws.number (machine.eval bound state).1) := by
    rw [hbound]
    exact laws.number_rangeBound loop.direction inclusive bound
  rw [Machine.Variables.rangeOf, Direction.range, Direction.length_values] at hfuel
  rw [Machine.Variables.runRange, hstill, Machine.Variables.rangeOf, Direction.range]
  rw [SourceLoop.run, Machine.performAll, Option.map_some, Option.getD_some, laws.perform_induction hinit]
  exact Machine.Variables.alike_runValues hop hnext hsteady hfuel rfl (hstop _).symm

private theorem truth_operation {op : String} (l r : Int) (hop : op ∈ ["<", "<=", ">", ">="]) :
    integers.truth (operation op l r) = comparison op l r := by
  have hops : op = "<" ∨ op = "<=" ∨ op = ">" ∨ op = ">=" := by simpa using hop
  have htruth : ∀ holds, integers.truth (truthInt holds) = holds := by decide
  rcases hops with rfl | rfl | rfl | rfl <;> exact htruth _

private theorem evalInt_assign {op : String} (name : String) (value : Node) (store : Store)
    (hop : op ∈ ["=", "+=", "-="]) :
    (evalInt (.assign op (.ident name) value) store).2 =
      (evalInt value store).2.set name (assigned op ((evalInt value store).2.get name) (evalInt value store).1) := by
  have hops : op = "=" ∨ op = "+=" ∨ op = "-=" := by simpa using hop
  have hsum : withoutEquals "+=" = "+" := by decide
  have hdifference : withoutEquals "-=" = "-" := by decide
  rw [evalInt]
  rcases hops with rfl | rfl | rfl
  · rfl
  · simp [hsum, operation, assigned]
  · simp [hdifference, operation, assigned]

/-- Integer variables keep the laws. -/
def variablesOfIntegers : integers.Variables where
  toOperators := operatorsOfIntegers
  get name store := store.get name
  set := Store.set
  number value := value
  get_set := Store.get_set_same
  get_set_other value store h := Store.get_set_other h value store
  set_get := Store.set_get
  eval_variable name store := rfl
  eval_constant store h := congrArg Prod.fst (evalInt_intValue h store)
  eval_reads h hsame := (congrArg Prod.fst (evalInt_effectless h hsame)).symm
  truth_compared := truth_operation
  number_sum l r := rfl
  number_difference l r := rfl
  perform_step {op} name store hop := by
    change (evalInt (.unary op (.ident name)) store).2 = _
    rw [evalInt, if_pos hop]
    rfl
  perform_assign := evalInt_assign
  perform_decl name quals storage type value width store := rfl
  exec_frame store h := get_runInt h store

/-- `for (i = 0; i < n; i++) body`. -/
def countedLoop (body : Node) : SourceLoop :=
  .forLoop (some (.assign "=" (.ident "i") (.constant "int" "0"))) (some (.binary "<" (.ident "i") (.ident "n")))
    (some (.unary "p++" (.ident "i"))) body

/-- The counting of such a loop. -/
def countedToBound : Counting := ⟨"i", .constant "int" "0", .ident "n", .up⟩

/-- `k += i;`. -/
def summing : Node := .assign "+=" (.ident "k") (.ident "i")

theorem alike_summing : (writeStmt {} .outermost false (countedLoop summing).node).result =
      .ok [.suite "for i in range(0, n):" [.line "k += i"]] ∧
    ∀ fuel store, (variablesOfIntegers.rangeOf countedToBound store).length ≤ fuel →
      variablesOfIntegers.Alike "i" ((countedLoop summing).run integers fuel store)
        (variablesOfIntegers.runRange countedToBound summing store) := by
  have hcode : (writeStmt {} .outermost false (countedLoop summing).node).result =
      .ok [.suite "for i in range(0, n):" [.line "k += i"]] := rfl
  have hbound : ∀ name, (Node.ident "n").reads name → name = "n" := by
    rintro name ⟨sub, hsub, hvariable⟩
    rw [List.mem_singleton.mp hsub] at hvariable
    simpa [Node.isVariable, eq_comm] using hvariable
  have hident : ∀ name other, Everywhere (·.writes name = false) (.ident other) :=
    fun name other => .of_parts rfl (by simp [Node.parts])
  have hbody : ∀ name, name ≠ "k" → Everywhere (·.writes name = false) summing := by
    intro name hname
    refine .of_parts (by simpa [summing, Node.writes, Node.isVariable] using hname.symm) ?_
    simp [summing, Node.parts, hident]
  have hcounting : counting? (.assign "=" (.ident "i") (.constant "int" "0")) (.binary "<" (.ident "i") (.ident "n"))
      (.unary "p++" (.ident "i")) = some countedToBound := rfl
  obtain ⟨header, bodyCode, -, -, -, halike⟩ := alike_runRange {} .outermost false hcounting hcode
  refine ⟨hcode, halike integers variablesOfIntegers ?_ ?_ (hbody "i" (by decide)) ?_⟩
  · intro sub hsub
    rw [List.mem_singleton.mp hsub]
    rfl
  · intro hreads
    exact absurd (hbound _ hreads) (by decide)
  · intro name hname
    rw [hbound name hname]
    exact hbody "n" (by decide)

/-- `n--;`. -/
def shrinking : Node := .unary "p--" (.ident "n")

/-- A body that changes the bound of its loop runs less often than in the output, whose range is computed once. -/
theorem entries_shrinkingRange : ∃ code,
    (writeStmt {} .outermost false (countedLoop shrinking).node).result = .ok code ∧
    Code.lines code = ["for i in range(0, n):", "    n -= 1"] ∧ shrinking.writes "n" = true ∧
    ((countedLoop shrinking).run integers 4 ⟨fun _ => 4⟩).entries.map (·.get "i") = [0, 1] ∧
    (variablesOfIntegers.runRange countedToBound shrinking ⟨fun _ => 4⟩).entries.map (·.get "i") = [0, 1, 2, 3] := by
  have hlines : (writeStmt {} .outermost false (countedLoop shrinking).node).result.toOption.map Code.lines =
      some ["for i in range(0, n):", "    n -= 1"] := by decide +kernel
  obtain ⟨code, hcode, hlines⟩ := exists_of_lines hlines
  refine ⟨code, hcode, hlines, rfl, ?_, ?_⟩
  · decide +kernel
  · decide +kernel

end StubGen.CUnit
