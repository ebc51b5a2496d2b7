import StubGen.Proofs.Effect.Purity
import StubGen.Proofs.Loop.Postfix
import StubGen.Proofs.Loop.Steps

/-!
# Calls in tests

The test of a `while` loop keeps its calls and assignments when its steps are taken out of it.  The operand of a step
stands in the test and in the statement of the step, and with it the calls in it (`calls_subscriptLoop`).  If these
operands have no calls and assignments, every evaluation of the test in the output makes each of them once, as in C
(`repeats_hostLoop`).

* `Node.actions` lists the calls and assignments in an expression.
* `Machine.logged` writes them into a log when it evaluates a test or runs a step.  The operators of a test may pass
  over some of them, but they are the same operators in C and in the output.
* `Run.Repeats` says what the log holds whenever the body starts, and when the loop ends.
-/

namespace StubGen.CUnit

namespace Node

/-- Calls and assignments. -/
def isAction : Node → Bool
  | call .. | assign .. => true
  | _ => false

/-- The calls and assignments that have a place in the text of an expression. -/
def actions (expr : Node) : List Node := expr.visited.filter isAction

theorem actions_eq (expr : Node) :
    expr.actions = [expr].filter isAction ++ expr.visitedParts.flatMap actions := by
  rw [actions, visited_eq, ← List.singleton_append, List.filter_append, List.filter_flatMap]
  rfl

theorem actions_unary (op : String) (operand : Node) : (unary op operand).actions = operand.actions := by
  simp [actions_eq (unary op operand), visitedParts, isAction]

theorem actions_binary (op : String) (left right : Node) :
    (binary op left right).actions = left.actions ++ right.actions := by
  simp [actions_eq (binary op left right), visitedParts, isAction]

theorem actions_of_intValue? {node : Node} {value : Int} (h : node.intValue? = some value) : node.actions = [] := by
  cases node with
  | constant type text =>
    rw [actions_eq]
    rfl
  | _ => cases h

end Node

/-! ### Splitting -/

private theorem actions_operand {node : Node} (h : SplittableOperand node) :
    node.withoutSteps.actions = node.actions := by
  cases h with
  | stepless hnone => rw [Node.withoutSteps_of_hasSteps hnone]
  | step hop hnone => rw [Node.withoutSteps, if_pos hop, Node.withoutSteps_of_hasSteps hnone, Node.actions_unary]

/-- What is left of a test has its calls and assignments. -/
theorem actions_withoutSteps {test : Node} (h : Splittable test) : test.withoutSteps.actions = test.actions := by
  cases h with
  | operand h => exact actions_operand h
  | binary hleft hright =>
    rw [Node.withoutSteps, Node.actions_binary, Node.actions_binary, actions_operand hleft, actions_operand hright]

private theorem steps_operand {node : Node} (h : SplittableOperand node) :
    ∀ step ∈ node.steps, step.operand.actions = node.actions := by
  intro step hstep
  cases h with
  | stepless hnone =>
    rw [(Node.steps_eq_nil_iff node).mpr hnone] at hstep
    cases hstep
  | step hop hnone =>
    rw [Node.steps, (Node.steps_eq_nil_iff _).mpr hnone, if_pos hop, List.nil_append, List.mem_singleton] at hstep
    rw [hstep, Node.actions_unary]

/-- The calls and assignments in the operand of a step are calls and assignments of the test. -/
theorem actions_step_subset {test : Node} (h : Splittable test) {step : Step} (hstep : step ∈ test.steps) :
    step.operand.actions ⊆ test.actions := by
  cases h with
  | operand h =>
    rw [steps_operand h step hstep]
    exact List.Subset.refl _
  | binary hleft hright =>
    rw [Node.actions_binary]
    rw [Node.steps, List.mem_append] at hstep
    rcases hstep with hstep | hstep
    · rw [steps_operand hleft step hstep]
      exact List.subset_append_left ..
    · rw [steps_operand hright step hstep]
      exact List.subset_append_right ..

/-! ### Logs -/

/-- The calls and assignments in the operands of steps. -/
def stepActions (steps : List Step) : List Node := steps.flatMap fun step => step.operand.actions

namespace Machine

variable {σ V : Type} (machine : Machine σ V)

/-- The machine that also lists the calls and assignments of the tests that it evaluates and of the steps that it
runs. -/
def logged : Machine (σ × List Node) V where
  eval expr state := ((machine.eval expr state.1).1, (machine.eval expr state.1).2, state.2 ++ expr.actions)
  truth := machine.truth
  step step state := (machine.step step state.1, state.2 ++ step.operand.actions)
  perform stmt state := (machine.perform stmt state.1, state.2)
  exec body state := ((machine.exec body state.1).1, (machine.exec body state.1).2, state.2)
  eval_intValue h state := by
    obtain ⟨htruth, hstill⟩ := machine.eval_intValue h state.1
    refine ⟨htruth, ?_⟩
    simp only [hstill, Node.actions_of_intValue? h, List.append_nil]

theorem logged_steps (steps : List Step) (state : σ) (log : List Node) :
    machine.logged.steps steps (state, log) = (machine.steps steps state, log ++ stepActions steps) := by
  induction steps generalizing state log with
  | nil => simp [Machine.steps, stepActions]
  | cons step rest ih =>
    change machine.logged.steps rest (machine.step step state, log ++ step.operand.actions) = _
    rw [ih, List.append_assoc]
    rfl

theorem logged_performAll (stmt : Option Node) (state : σ) (log : List Node) :
    machine.logged.performAll stmt (state, log) = (machine.performAll stmt state, log) := by
  cases stmt <;> rfl

end Machine

/-- What the log holds when a test has been evaluated, after some rounds.  Each test adds `actions`, and between two
tests `others` are added. -/
def logAfter (others actions log : List Node) (rounds : Nat) : List Node :=
  log ++ actions ++ (List.replicate rounds (others ++ actions)).flatten

theorem logAfter_zero (others actions log : List Node) : logAfter others actions log 0 = log ++ actions := by
  simp [logAfter]

theorem logAfter_succ (others actions log : List Node) (rounds : Nat) :
    logAfter others actions log (rounds + 1) = logAfter others actions (log ++ actions ++ others) rounds := by
  simp [logAfter, List.replicate_succ]

namespace Run

variable {σ : Type} {others actions log : List Node}

/-- Each run of the body starts after one test more than the one before, and the loop ends after the test that follows
the last run of the body, or in that run. -/
structure Repeats (others actions log : List Node) (run : Run (σ × List Node)) : Prop where
  entries_eq : run.entries.map Prod.snd = (List.range run.entries.length).map (logAfter others actions log)
  ending_eq : ∀ outcome state, run.ending = some (outcome, state) → ∃ rounds,
    state.2 = logAfter others actions log rounds ∧ (rounds = run.entries.length ∨ rounds + 1 = run.entries.length)

theorem repeats_stopped : (stopped : Run (σ × List Node)).Repeats others actions log where
  entries_eq := rfl
  ending_eq := nofun

/-- The first test fails. -/
theorem repeats_done (outcome : Outcome) (state : σ) :
    (done outcome (state, log ++ actions)).Repeats others actions log where
  entries_eq := rfl
  ending_eq := by
    rintro _ _ ⟨⟩
    exact ⟨0, (logAfter_zero ..).symm, Or.inl rfl⟩

/-- The loop is left in the first run of the body. -/
theorem repeats_left (outcome : Outcome) (before state : σ) :
    Repeats others actions log ⟨[.body (before, log ++ actions)], some (outcome, state, log ++ actions)⟩ where
  entries_eq := by simp [entries, logAfter_zero]
  ending_eq := by
    rintro _ _ ⟨⟩
    exact ⟨0, (logAfter_zero ..).symm, Or.inr rfl⟩

/-- One more round ahead of a run. -/
theorem Repeats.round {run : Run (σ × List Node)} (h : run.Repeats others actions (log ++ actions ++ others))
    (before : σ) : (after [.body (before, log ++ actions)] run).Repeats others actions log := by
  have hentries : (after [.body (before, log ++ actions)] run).entries = (before, log ++ actions) :: run.entries := rfl
  constructor
  · rw [hentries, List.map_cons, h.entries_eq, List.length_cons, List.range_succ_eq_map, List.map_cons, List.map_map,
      logAfter_zero]
    congr 1
    exact List.map_congr_left fun rounds _ => (logAfter_succ ..).symm
  · intro outcome state hending
    obtain ⟨rounds, hlog, hrounds⟩ := h.ending_eq outcome state hending
    rw [hentries, List.length_cons]
    exact ⟨rounds + 1, by rw [hlog, logAfter_succ], by omega⟩

end Run

namespace Machine

variable {σ V : Type} {machine : Machine σ V} {others actions log : List Node}

theorem repeats_testThen {cond : Node} {next : Bool → σ × List Node → Run (σ × List Node)}
    (h : ∀ holds after, (next holds (after, log ++ cond.actions)).Repeats others actions log) (state : σ) :
    (machine.logged.testThen cond (state, log) next).Repeats others actions log := by
  have hnext := h (machine.truth (machine.eval cond state).1) (machine.eval cond state).2
  have hentries : (machine.logged.testThen cond (state, log) next).entries =
      (next (machine.truth (machine.eval cond state).1)
        ((machine.eval cond state).2, log ++ cond.actions)).entries := by
    rw [testThen]
    cases cond.intValue? <;> rfl
  exact ⟨by rw [hentries]; exact hnext.entries_eq, by rw [hentries]; exact hnext.ending_eq⟩

theorem repeats_runBody {body : Node} {again : σ × List Node → Run (σ × List Node)}
    (h : ∀ after, (again (after, log ++ actions)).Repeats others actions (log ++ actions ++ others)) (state : σ) :
    ((machine.logged.runBody body (state, log ++ actions)).thenAgain again).Repeats others actions log := by
  cases hexec : machine.exec body state with
  | mk outcome after =>
    have hrun : machine.logged.runBody body (state, log ++ actions) =
        ⟨[.body (state, log ++ actions)], some (outcome, after, log ++ actions)⟩ := by
      simp [runBody, logged, hexec]
    rw [hrun]
    cases outcome with
    | normal | continued => exact (h after).round state
    | broke | returned => exact Run.repeats_left _ state after

/-- Rounds that run these steps after the body add the calls and assignments of the steps and of the test. -/
theorem repeats_repeatWhile {cond body : Node} {steps : List Step} {suite : σ × List Node → Run (σ × List Node)}
    (hsuite : ∀ state again, (suite state).thenAgain again =
      (machine.logged.runBody body state).thenAgain fun state => again (machine.logged.steps steps state))
    (fuel : Nat) (state : σ) (log : List Node) :
    (machine.logged.repeatWhile cond suite fuel (state, log)).Repeats (stepActions steps) cond.actions log := by
  induction fuel generalizing state log with
  | zero =>
    refine repeats_testThen (fun holds after => ?_) state
    cases holds with
    | false => exact Run.repeats_done .normal after
    | true => exact Run.repeats_stopped
  | succ fuel ih =>
    refine repeats_testThen (fun holds after => ?_) state
    cases holds with
    | false => exact Run.repeats_done .normal after
    | true =>
      rw [if_pos rfl, hsuite]
      refine repeats_runBody (fun later => ?_) after
      rw [logged_steps]
      exact ih _ _

/-- A loop of the source adds the calls and assignments of its test. -/
theorem repeats_runFor (test body : Node) (fuel : Nat) (state : σ) (log : List Node) :
    (machine.logged.runFor (some test) none body fuel (state, log)).Repeats [] test.actions log := by
  have hrun : machine.logged.repeatWhile test (machine.logged.runBody body) fuel (state, log) =
      machine.logged.runFor (some test) none body fuel (state, log) :=
    machine.logged.repeatWhile_eq id (fun _ _ => rfl) (fun _ _ => rfl) fuel (state, log)
  rw [← hrun]
  change Run.Repeats (stepActions []) _ _ _
  exact repeats_repeatWhile (fun _ _ => rfl) fuel state log

end Machine

/-- In C each evaluation of a test makes each of its calls and assignments once.  In the output the steps that run for
the test make those in their operands once more.  If the operands have none, all are made once there too, and only then
no call and no assignment stands both in a step and in the test. -/
theorem repeats_hostLoop (options : UnitOptions) (context : Context) (after : Bool) (loop : SourceLoop)
    {code : List Code} (h : (writeStmt options context after loop.node).result = .ok code)
    (hwhile : loop.isWhile = true) {test : Node} (htest : loop.test? = some test) :
    ∃ split lowered, splitTest test = .ok split ∧ code = elseCode after lowered ∧
      (codeAll options (hostLoop context loop split)).result = .ok lowered ∧
      split.cond.actions = test.actions ∧
      ((∀ step ∈ split.after, ∀ action ∈ step.operand.actions, action ∉ split.cond.actions) ↔
        stepActions split.after = []) ∧
      ∀ {σ V : Type} (machine : Machine σ V),
        (∀ state, (machine.exec loop.body state).1 = .continued → containsJump .onlyContinue loop.body = true) →
        ∀ fuel state log,
          (loop.run machine.logged fuel (state, log)).Repeats [] test.actions log ∧
          (machine.logged.hostAll fuel (hostLoop context loop split) (state, log)).Repeats
            (stepActions split.after) test.actions (log ++ stepActions split.before) ∧
          (stepActions split.after = [] →
            (machine.logged.hostAll fuel (hostLoop context loop split) (state, log)).Repeats [] test.actions log) := by
  obtain ⟨split, text, lowered, hsplit, hcode, -, hafter, hprogram⟩ := writeStmt_while_ok h hwhile htest
  obtain ⟨hsplittable, hform⟩ := splitTest_eq_split.mp hsplit
  have hcond : split.cond.actions = test.actions := by
    rw [hform]
    exact actions_withoutSteps hsplittable
  have hsteps : split.after = test.steps := by
    rw [hform]
    rfl
  have hbefore : split.before = split.after.filter Step.isPrefix := by
    rw [hform]
    rfl
  refine ⟨split, lowered, hsplit, hcode, hprogram, hcond, ?_, ?_⟩
  · rw [stepActions, List.flatMap_eq_nil_iff]
    refine forall₂_congr fun step hstep => ?_
    rw [hsteps] at hstep
    rw [List.eq_nil_iff_forall_not_mem]
    refine forall₂_congr fun action haction => ?_
    rw [hcond]
    exact iff_of_false (not_not_intro (actions_step_subset hsplittable hstep haction)) (by simp)
  · intro σ V machine hcontinued fuel state log
    have hcontinue : split.after ≠ [] → ∀ state, (machine.logged.exec loop.body state).1 ≠ .continued := by
      intro hne state heq
      have hjump := hcontinued state.1 heq
      rw [hafter hne] at hjump
      cases hjump
    have hrepeats : (machine.logged.hostAll fuel (hostLoop context loop split) (state, log)).Repeats
        (stepActions split.after) test.actions (log ++ stepActions split.before) := by
      rw [hostLoop, Machine.hostAll_effect, Machine.logged_performAll, hostWhile, Machine.hostAll_steps,
        Machine.logged_steps, Machine.hostAll_singleton, Machine.host, ← hcond]
      exact Machine.repeats_repeatWhile
        (fun state again => Machine.bodySteps_thenAgain _ hcontinue fuel state again) fuel _ _
    refine ⟨?_, hrepeats, fun hnone => ?_⟩
    · rw [SourceLoop.run_of_isWhile hwhile htest, Machine.logged_performAll]
      exact Machine.repeats_runFor test loop.body fuel _ log
    · have hnone' : stepActions split.before = [] := by
        rw [stepActions, List.flatMap_eq_nil_iff] at hnone ⊢
        rw [hbefore]
        exact fun step hstep => hnone step (List.filter_sublist.subset hstep)
      rwa [hnone, hnone', List.append_nil] at hrepeats

/-- `next()`. -/
def nextCall : Node := .call (.ident "next") none

/-- `n-- && next()`. -/
def guardedTest : Node := .binary "&&" (.unary "p--" (.ident "n")) nextCall

/-- `while (n-- && next()) use();`. -/
def guarded : SourceLoop := .whileLoop guardedTest (.call (.ident "use") none)

theorem repeats_guarded : ∃ split code, splitTest guardedTest = .ok split ∧
    (writeStmt {} .outermost false guarded.node).result = .ok code ∧
    Code.lines code = ["while n and next():", "    use()", "    n -= 1"] ∧
    (codeAll {} (hostLoop .outermost guarded split)).result = .ok code ∧
    split.cond.actions = [nextCall] ∧ ∀ fuel store log,
      (guarded.run integers.logged fuel (store, log)).Repeats [] [nextCall] log ∧
      (integers.logged.hostAll fuel (hostLoop .outermost guarded split) (store, log)).Repeats [] [nextCall] log := by
  have hlines : (writeStmt {} .outermost false guarded.node).result.toOption.map Code.lines =
      some ["while n and next():", "    use()", "    n -= 1"] := by decide +kernel
  have hactions : guardedTest.actions = [nextCall] := by
    simp [guardedTest, nextCall, Node.actions_eq, Node.visitedParts, Node.isAction]
  obtain ⟨code, hcode, hlines⟩ := exists_of_lines hlines
  obtain ⟨split, lowered, hsplit, hlayout, hlowered, hcond, -, hrepeats⟩ :=
    repeats_hostLoop {} .outermost false guarded hcode rfl rfl
  obtain rfl : code = lowered := hlayout
  have hnone : stepActions split.after = [] := by
    obtain rfl : split = guardedTest.split := (splitTest_eq_split.mp hsplit).2
    change stepActions [⟨"p--", .ident "n"⟩] = []
    simp [stepActions, Node.actions_eq, Node.visitedParts, Node.isAction]
  rw [hactions] at hcond hrepeats
  refine ⟨split, code, hsplit, hcode, hlines, hlowered, hcond, fun fuel store log => ?_⟩
  obtain ⟨hsource, -, hhost⟩ := hrepeats integers (fun store heq => by cases heq) fuel store log
  exact ⟨hsource, hhost hnone⟩

/-- `left[next()]`. -/
def leftOfNext : Node := .subscript (.ident "left") nextCall

/-- `while (--left[next()]) use();`. -/
def drained : SourceLoop := .whileLoop (.unary "--" leftOfNext) (.call (.ident "use") none)

/-- The machine on which nothing changes, and every test holds but those of the constant zero. -/
def unmoved : Machine Unit Int where
  eval expr _ := (expr.intValue?.getD 1, ())
  truth value := value ≠ 0
  step _ _ := ()
  perform _ _ := ()
  exec _ _ := (.normal, ())
  eval_intValue h _ := by simp [h]

/-- A call in the operand of a step is made by the test and by the step. -/
theorem calls_subscriptLoop : ∃ split code, splitTest (.unary "--" leftOfNext) = .ok split ∧
    (writeStmt {} .outermost false drained.node).result = .ok code ∧
    Code.lines code = ["left[next()] -= 1", "while left[next()]:", "    use()", "    left[next()] -= 1"] ∧
    (codeAll {} (hostLoop .outermost drained split)).result = .ok code ∧
    (∃ step ∈ split.before, nextCall ∈ step.operand.actions) ∧ nextCall ∈ split.cond.actions ∧
    (drained.run unmoved.logged 1 ((), [])).entries.map Prod.snd = [[nextCall]] ∧
    (unmoved.logged.hostAll 1 (hostLoop .outermost drained split) ((), [])).entries.map Prod.snd =
      [[nextCall, nextCall]] := by
  have hlines : (writeStmt {} .outermost false drained.node).result.toOption.map Code.lines =
      some ["left[next()] -= 1", "while left[next()]:", "    use()", "    left[next()] -= 1"] := by decide +kernel
  have hactions : leftOfNext.actions = [nextCall] := by
    simp [leftOfNext, nextCall, Node.actions_eq, Node.visitedParts, Node.isAction]
  obtain ⟨code, hcode, hlines⟩ := exists_of_lines hlines
  obtain ⟨split, text, lowered, hsplit, hlayout, -, -, hlowered⟩ := writeStmt_while_ok hcode rfl rfl
  obtain rfl : code = lowered := hlayout
  obtain rfl : split = ⟨[⟨"--", leftOfNext⟩], leftOfNext, [⟨"--", leftOfNext⟩]⟩ := (splitTest_eq_split.mp hsplit).2
  refine ⟨_, code, hsplit, hcode, hlines, hlowered, ⟨_, List.mem_singleton.mpr rfl, ?_⟩, ?_, ?_, ?_⟩
  · simp [hactions]
  · simp [hactions]
  · change [[] ++ (Node.unary "--" leftOfNext).actions] = _
    rw [Node.actions_unary, hactions]
    rfl
  · change [[] ++ leftOfNext.actions ++ leftOfNext.actions] = _
    rw [hactions]
    rfl

end StubGen.CUnit
