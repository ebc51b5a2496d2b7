import StubGen.Proofs.Loop.Integers
import StubGen.Proofs.Loop.Lowering

/-!
# Postfix steps in tests

In C a postfix step of the test of a loop runs before the body.  The output runs it after the body, so everything that
the output does, it does one application of these steps behind (`run_eq_map_hostAll`).  A body that reads the variable
sees another value (`entries_postfixLoop`).

* `Run.map` changes the states of a run; `Machine.testThen_splitsAround` and `Machine.runFor_eq_map_repeatWhile` compare
  tests and rounds that are one application of the steps apart.
-/

namespace StubGen.CUnit

open Traced

/-! ### Runs -/

namespace Run

variable {σ : Type}

/-- The run with other states. -/
def map (f : σ → σ) (run : Run σ) : Run σ :=
  ⟨run.events.map fun
    | .test holds after => .test holds (f after)
    | .body before => .body (f before),
  run.ending.map (Prod.map id f)⟩

theorem map_after (f : σ → σ) (events : List (Event σ)) (run : Run σ) :
    (after events run).map f = after (map f ⟨events, none⟩).events (run.map f) := by
  simp [map, after]

theorem map_thenAgain {f : σ → σ} {again again' : σ → Run σ} (h : ∀ state, again (f state) = (again' state).map f)
    (run : Run σ) : (run.map f).thenAgain again = (run.thenAgain again').map f := by
  obtain ⟨events, ending⟩ := run
  cases ending with
  | none => rfl
  | some ending =>
    obtain ⟨outcome, state⟩ := ending
    cases outcome with
    | normal | continued =>
      change after (map f ⟨events, none⟩).events (again (f state)) = (after events (again' state)).map f
      rw [h, map_after]
    | broke | returned => rfl

end Run

namespace Machine

variable {σ V : Type} {machine : Machine σ V}

theorem testThen_splitsAround {test : Node} {split : SplitTest} (hsplits : machine.SplitsAround test split)
    (htest : test.intValue? = none) (hcond : split.cond.intValue? = none) {next next' : Bool → σ → Run σ}
    (hnext : ∀ holds state, next holds (machine.steps split.late state) =
      (next' holds state).map (machine.steps split.late)) (state : σ) :
    machine.testThen test state next =
      (machine.testThen split.cond (machine.steps split.before state) next').map (machine.steps split.late) := by
  have hstill : machine.eval split.cond (machine.steps split.before state) =
      ((machine.eval split.cond (machine.steps split.before state)).1, machine.steps split.before state) :=
    Prod.ext rfl (hsplits.still _)
  rw [testThen, testThen, htest, hcond, hsplits.eval_eq, hstill, Run.map_after]
  simp only [hnext]
  rfl

/-- A loop whose rounds run the postfix steps of the test last does what the loop of the source does, but one
application of these steps behind. -/
theorem runFor_eq_map_repeatWhile {test body : Node} {split : SplitTest} {suite : σ → Run σ}
    (hsplits : machine.SplitsAround test split) (htest : test.intValue? = none) (hcond : split.cond.intValue? = none)
    (hsuite : ∀ state again, (suite state).thenAgain again =
      (machine.runBody body state).thenAgain fun state => again (machine.steps split.after state))
    (hbody : ∀ state, machine.exec body (machine.steps split.late state) =
      Prod.map id (machine.steps split.late) (machine.exec body state)) (fuel : Nat) (state : σ) :
    machine.runFor (some test) none body fuel state =
      (machine.repeatWhile split.cond suite fuel (machine.steps split.before state)).map
        (machine.steps split.late) := by
  have hrun : ∀ state, machine.runBody body (machine.steps split.late state) =
      (machine.runBody body state).map (machine.steps split.late) := by
    intro state
    rw [runBody, runBody, hbody]
    rfl
  induction fuel generalizing state with
  | zero =>
    rw [repeatWhile, runFor, testThen?]
    refine testThen_splitsAround hsplits htest hcond (fun holds state => ?_) state
    cases holds <;> rfl
  | succ fuel ih =>
    rw [repeatWhile, runFor, testThen?]
    refine testThen_splitsAround hsplits htest hcond (fun holds state => ?_) state
    cases holds with
    | false => rfl
    | true =>
      simp only [↓reduceIte]
      rw [hrun, hsuite]
      refine Run.map_thenAgain (fun state => ?_) _
      -- the steps at the end of a round are those that C runs around the next test
      rw [performAll, Option.map_none, Option.getD_none, ih, hsplits.comm, hsplits.after_eq]

end Machine

/-! ### All loops -/

namespace SourceLoop

/-- Whether the loop is written as a `while` loop: it has a test, and no step. -/
def isWhile : SourceLoop → Bool
  | whileLoop .. => true
  | forLoop _ cond next _ => cond.isSome && next.isNone
  | doLoop .. => false

/-- What runs ahead of the loop. -/
def init? : SourceLoop → Option Node
  | forLoop init _ _ _ => init
  | _ => none

theorem run_of_isWhile {σ V : Type} {machine : Machine σ V} {loop : SourceLoop} {test : Node}
    (hwhile : loop.isWhile = true) (htest : loop.test? = some test) (fuel : Nat) (state : σ) :
    loop.run machine fuel state =
      machine.runFor (some test) none loop.body fuel (machine.performAll loop.init? state) := by
  cases loop with
  | whileLoop cond body =>
    cases htest
    rfl
  | forLoop init cond next body =>
    obtain rfl : cond = some test := htest
    obtain rfl : next = none := by simpa [isWhile] using hwhile
    rfl
  | doLoop cond body => cases hwhile

end SourceLoop

/-- The output of a loop that is written as a `while` loop. -/
def hostLoop (context : Context) (loop : SourceLoop) (split : SplitTest) : List HostStmt :=
  (loop.init?.map (HostStmt.effect context)).toList ++ hostWhile context split loop.body

/-- The layout of a loop that is written as a `while` loop. -/
theorem writeStmt_while_ok {options : UnitOptions} {context : Context} {after : Bool} {loop : SourceLoop}
    {code : List Code} (h : (writeStmt options context after loop.node).result = .ok code)
    (hwhile : loop.isWhile = true) {test : Node} (htest : loop.test? = some test) :
    ∃ split text lowered, splitTest test = .ok split ∧ code = elseCode after lowered ∧
      (renderExpr options.reduceParentheses split.cond).result = .ok text ∧
      (split.after ≠ [] → containsJump .onlyContinue loop.body = false) ∧
      (codeAll options (hostLoop context loop split)).result = .ok lowered := by
  cases loop with
  | whileLoop cond body =>
    cases htest
    rw [SourceLoop.node, writeStmt_whileLoop] at h
    obtain ⟨lowered, hlowered, h⟩ := bind_eq_ok.mp h
    cases h
    obtain ⟨split, text, hsplit, htext, hafter, hcode⟩ := writeWhile_ok hlowered
    exact ⟨split, text, lowered, hsplit, rfl, htext, hafter, hcode⟩
  | forLoop init cond next body =>
    obtain rfl : cond = some test := htest
    obtain rfl : next = none := by simpa [SourceLoop.isWhile] using hwhile
    rw [SourceLoop.node, writeStmt_forLoop] at h
    obtain ⟨lowered, hlowered, h⟩ := bind_eq_ok.mp h
    cases h
    have hcounts : (SourceLoop.forLoop init (some test) none body).counts = false := by cases init <;> rfl
    obtain ⟨split, hsplit, -, hcode⟩ := writeFor_ok hcounts rfl rfl hlowered
    obtain ⟨hsplit, ⟨text, htext⟩, hafter⟩ := hsplit test rfl rfl
    exact ⟨split, text, lowered, hsplit, rfl, htext, hafter, hcode⟩
  | doLoop cond body => cases hwhile

/-- The output of a loop with steps in its test does all that the loop does, but one application of the postfix steps
behind, if it makes no difference whether these run before or after the body. -/
theorem run_eq_map_hostAll (options : UnitOptions) (context : Context) (after : Bool) (loop : SourceLoop)
    {code : List Code} (h : (writeStmt options context after loop.node).result = .ok code)
    (hwhile : loop.isWhile = true) {test : Node} (htest : loop.test? = some test) (hsteps : test.hasSteps = true) :
    ∃ split lowered, splitTest test = .ok split ∧ code = elseCode after lowered ∧
      (codeAll options (hostLoop context loop split)).result = .ok lowered ∧
      ∀ {σ V : Type} (machine : Machine σ V), Nonempty machine.Operators → machine.LateSteps → SingleSteps test →
        (∀ state, (machine.exec loop.body state).1 = .continued → containsJump .onlyContinue loop.body = true) →
        (∀ state, machine.exec loop.body (machine.steps split.late state) =
          Prod.map id (machine.steps split.late) (machine.exec loop.body state)) →
        ∀ fuel state, loop.run machine fuel state =
          (machine.hostAll fuel (hostLoop context loop split) state).map (machine.steps split.late) := by
  obtain ⟨split, text, lowered, hsplit, hcode, htext, hafter, hprogram⟩ := writeStmt_while_ok h hwhile htest
  refine ⟨split, lowered, hsplit, hcode, hprogram, ?_⟩
  intro σ V machine ⟨operators⟩ hlaw hsingle hcontinued hbody fuel state
  have hvariables : ∀ op operand, .unary op operand ∈ test.subexprs → Node.isStepOp op = true →
      ∃ name, operand = .ident name := by
    intro op operand hmem hop
    obtain ⟨name, hname, -⟩ := hsingle.single op operand hmem hop
    exact ⟨name, hname⟩
  obtain ⟨hnone, hcond⟩ := intValue?_splitTest hsteps hvariables hsplit
  have hsplits := splitsAround_splitTest operators hsteps hsingle (fun _ => hlaw) hsplit htext
  have hcontinue : split.after ≠ [] → ∀ state, (machine.exec loop.body state).1 ≠ .continued := by
    intro hne state heq
    have := hcontinued state heq
    rw [hafter hne] at this
    cases this
  rw [SourceLoop.run_of_isWhile hwhile htest]
  rw [hostLoop, Machine.hostAll_effect, hostWhile, Machine.hostAll_steps, Machine.hostAll_singleton, Machine.host]
  exact Machine.runFor_eq_map_repeatWhile hsplits hnone hcond
    (fun state again => machine.bodySteps_thenAgain hcontinue fuel state again) hbody fuel _

/-- Integer variables know postfix steps too. -/
theorem lateSteps_integers : integers.LateSteps where
  eval_postfix name store hop := evalInt_postfix hop name store
  step_comm op op' store h := Store.step_comm op op' store h

/-- `while (n--) k++;`. -/
def counted : SourceLoop := .whileLoop (.unary "p--" (.ident "n")) (.unary "p++" (.ident "k"))

theorem run_counted : ∃ split code, splitTest (.unary "p--" (.ident "n")) = .ok split ∧
    (writeStmt {} .outermost false counted.node).result = .ok code ∧
    Code.lines code = ["while n:", "    k += 1", "    n -= 1"] ∧
    (codeAll {} (hostLoop .outermost counted split)).result = .ok code ∧
    ∀ fuel store, counted.run integers fuel store =
      (integers.hostAll fuel (hostLoop .outermost counted split) store).map (integers.steps split.late) := by
  have hlines : (writeStmt {} .outermost false counted.node).result.toOption.map Code.lines =
      some ["while n:", "    k += 1", "    n -= 1"] := by decide +kernel
  have hsubexprs : (Node.unary "p--" (.ident "n")).subexprs = [.unary "p--" (.ident "n"), .ident "n"] := rfl
  have hsingle : SingleSteps (.unary "p--" (.ident "n")) := by
    constructor
    · intro op operand hmem _
      rw [hsubexprs, List.mem_cons, List.mem_singleton] at hmem
      rcases hmem with heq | heq
      · cases heq
        exact ⟨"n", rfl, by decide⟩
      · cases heq
    · intro sub hmem hchanges
      rw [hsubexprs, List.mem_cons, List.mem_singleton] at hmem
      rcases hmem with rfl | rfl
      · rfl
      · cases hchanges
  have hbody : ∀ store, integers.exec counted.body store = (.normal, store.step ⟨"p++", .ident "k"⟩) := by
    intro store
    have heval : evalInt counted.body store = (store.get "k", store.step ⟨"p++", .ident "k"⟩) :=
      evalInt_postfix (by decide) "k" store
    change (Outcome.normal, (evalInt counted.body store).2) = _
    rw [heval]
  obtain ⟨code, hcode, hlines⟩ := exists_of_lines hlines
  obtain ⟨split, lowered, hsplit, hlayout, hlowered, hrun⟩ :=
    run_eq_map_hostAll {} .outermost false counted hcode rfl rfl (by decide)
  have hlate : split.late = [⟨"p--", .ident "n"⟩] := by
    have hform : Step.isPostfix ⟨"p--", .ident "n"⟩ = true := by decide +kernel
    cases hsplit
    rw [late_ofStep, if_pos hform]
  obtain rfl : code = lowered := hlayout
  refine ⟨split, code, hsplit, hcode, hlines, hlowered, ?_⟩
  refine hrun integers ⟨operatorsOfIntegers⟩ lateSteps_integers hsingle ?_ ?_
  · intro store hcontinued
    rw [hbody] at hcontinued
    cases hcontinued
  · intro store
    rw [hbody, hbody, hlate]
    exact Prod.ext rfl (Store.step_comm "p++" "p--" store (by decide))

/-- `while (n--) use(n);`. -/
def used : SourceLoop := .whileLoop (.unary "p--" (.ident "n")) (.call (.ident "use") (some (.ident "n")))

/-- A body that reads the variable of a postfix step sees its value before the step, and C has it run after the step. -/
theorem entries_postfixLoop : ∃ split code, splitTest (.unary "p--" (.ident "n")) = .ok split ∧
    (writeStmt {} .outermost false used.node).result = .ok code ∧
    Code.lines code = ["while n:", "    use(n)", "    n -= 1"] ∧
    (codeAll {} (hostLoop .outermost used split)).result = .ok code ∧
    (used.run integers 2 ⟨fun _ => 1⟩).entries.map (·.get "n") = [0] ∧
    (integers.hostAll 2 (hostLoop .outermost used split) ⟨fun _ => 1⟩).entries.map (·.get "n") = [1] := by
  have hlines : (writeStmt {} .outermost false used.node).result.toOption.map Code.lines =
      some ["while n:", "    use(n)", "    n -= 1"] := by decide +kernel
  obtain ⟨code, hcode, hlines⟩ := exists_of_lines hlines
  obtain ⟨split, text, lowered, hsplit, hlayout, -, -, hlowered⟩ := writeStmt_while_ok hcode rfl rfl
  obtain rfl : code = lowered := hlayout
  refine ⟨split, code, hsplit, hcode, hlines, hlowered, ?_, ?_⟩
  · decide +kernel
  · cases hsplit
    decide +kernel

end StubGen.CUnit
