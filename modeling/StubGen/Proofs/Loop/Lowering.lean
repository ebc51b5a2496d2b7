import StubGen.Proofs.Loop.Split

/-!
# Lowering of loops

The output of a loop that does not run over a range does what the loop does: the same tests and the same runs of the
body, in the same states and with the same end.

* `hostWhile`, `hostStepped` and `hostFor` are the outputs of loops that test first.
* `Run.andThen_thenAgain` moves the end of a body to the start of the next round.
* `hostAll_eq_run` puts the forms together.
-/

namespace StubGen.CUnit

open Traced

/-! ### Runs -/

namespace Run

variable {σ : Type}

theorem andThen_done (run : Run σ) : run.andThen (done .normal) = run := by
  obtain ⟨events, ending⟩ := run
  cases ending with
  | none => rfl
  | some ending =>
    obtain ⟨outcome, state⟩ := ending
    cases outcome <;> simp [andThen, after, done]

theorem after_thenAgain (events : List (Event σ)) (run : Run σ) (again : σ → Run σ) :
    (after events run).thenAgain again = after events (run.thenAgain again) := by
  obtain ⟨others, ending⟩ := run
  cases ending with
  | none => rfl
  | some ending =>
    obtain ⟨outcome, state⟩ := ending
    cases outcome <;> simp [thenAgain, after]

/-- What stands at the end of a body runs at the start of the next round, unless the body continues. -/
theorem andThen_thenAgain {run : Run σ} (h : ∀ state, run.ending ≠ some (.continued, state)) (next again : σ → Run σ) :
    (run.andThen next).thenAgain again = run.thenAgain fun state => (next state).thenAgain again := by
  obtain ⟨events, ending⟩ := run
  cases ending with
  | none => rfl
  | some ending =>
    obtain ⟨outcome, state⟩ := ending
    cases outcome with
    | normal => exact after_thenAgain events (next state) again
    | broke => rfl
    | continued => exact absurd rfl (h state)
    | returned => rfl

end Run

/-! ### Layout -/

variable {options : UnitOptions}

theorem codeAll_append (first second : List HostStmt) :
    codeAll options (first ++ second) = (do return (← codeAll options first) ++ (← codeAll options second)) := by
  induction first with
  | nil => simp [codeAll]
  | cons stmt rest ih => simp only [codeAll, List.cons_append, ih, bind_assoc, pure_bind, List.append_assoc]

/-- Code that comes to lines is there. -/
theorem exists_of_lines {written : Traced (List Code)} {lines : List String}
    (h : written.result.toOption.map Code.lines = some lines) :
    ∃ code, written.result = .ok code ∧ Code.lines code = lines := by
  cases hresult : written.result with
  | error cause =>
    rw [hresult] at h
    cases h
  | ok code =>
    rw [hresult] at h
    exact ⟨code, rfl, Option.some.inj h⟩

def hostSteps (steps : List Step) : List HostStmt := steps.map .step

theorem codeAll_steps (steps : List Step) :
    codeAll options (hostSteps steps) = steps.mapM (writeStep options.reduceParentheses) := by
  induction steps with
  | nil => rfl
  | cons step rest ih =>
    rw [hostSteps] at ih
    rw [hostSteps, List.map_cons, codeAll, HostStmt.code, ih, List.mapM_cons]
    simp

/-- The output of a `while` loop. -/
def hostWhile (context : Context) (split : SplitTest) (body : Node) : List HostStmt :=
  hostSteps split.before ++ [.whileTest split.cond (.body context.enterLoop body :: hostSteps split.after)]

theorem writeWhile_ok {context : Context} {cond body : Node} {lowered : List Code}
    (h : (writeWhile options.reduceParentheses cond body (writeStmt options context.enterLoop false body)).result =
      .ok lowered) :
    ∃ split text, splitTest cond = .ok split ∧ (renderExpr options.reduceParentheses split.cond).result = .ok text ∧
      (split.after ≠ [] → containsJump .onlyContinue body = false) ∧
      (codeAll options (hostWhile context split body)).result = .ok lowered := by
  simp only [writeWhile, bind_eq_ok, guard_eq_ok] at h
  obtain ⟨split, hsplit, hcontinue, -, before, hbefore, text, htext, bodyCode, hbody, after, hafter, h⟩ := h
  refine ⟨split, text, hsplit, htext, ?_, ?_⟩
  · intro hne
    simpa [hne] using hcontinue
  · rw [hostWhile, codeAll_append, codeAll_steps]
    simp only [codeAll, HostStmt.code, codeAll_steps, bind_eq_ok, pure_result, Except.ok.injEq]
    cases h
    exact ⟨before, hbefore, _, ⟨_, ⟨text, htext, _, ⟨bodyCode, hbody, after, hafter, rfl⟩, rfl⟩, _, rfl, rfl⟩, rfl⟩

/-- The output of a `for` loop with a step, or without a test. -/
def hostStepped (context : Context) (cond next : Option Node) (body : Node) : List HostStmt :=
  let suite := .body context.enterLoop body :: (next.map (HostStmt.effect context)).toList
  match cond with
  | some cond => [.ifTest cond [.whileTrue (suite ++ [.leaveUnless cond])]]
  | none => [.whileTrue suite]

theorem writeSteppedLoop_ok {context : Context} {cond next : Option Node} {body : Node} {lowered : List Code}
    {nextCode : Traced (List Code)} (hnext : nextCode = codeAll options (next.map (HostStmt.effect context)).toList)
    (h : (writeSteppedLoop options.reduceParentheses cond (writeStmt options context.enterLoop false body)
      nextCode).result = .ok lowered) :
    (codeAll options (hostStepped context cond next body)).result = .ok lowered := by
  subst hnext
  cases cond with
  | some cond =>
    simp only [writeSteppedLoop, bind_eq_ok, pure_result, Except.ok.injEq] at h
    obtain ⟨test, htest, bodyCode, hbody, nextLines, hnext, rfl⟩ := h
    simp only [hostStepped, codeAll, HostStmt.code, codeAll_append, List.cons_append, bind_eq_ok, pure_result,
      Except.ok.injEq]
    have hleave : ∃ code, (∃ first, (∃ text, (renderExpr options.reduceParentheses cond).result = .ok text ∧
        [leaveUnless text] = first) ∧ ∃ rest, [] = rest ∧ first ++ rest = code) ∧ code = [leaveUnless test] :=
      ⟨_, ⟨_, ⟨test, htest, rfl⟩, _, rfl, rfl⟩, rfl⟩
    obtain ⟨_, hleave, rfl⟩ := hleave
    refine ⟨_, ⟨test, htest, _, ⟨_, ⟨_, ⟨bodyCode, hbody, _, ⟨nextLines, hnext, _, hleave, rfl⟩, rfl⟩, rfl⟩,
      _, rfl, rfl⟩, rfl⟩, _, rfl, ?_⟩
    simp [Code.orPass]
  | none =>
    simp only [writeSteppedLoop, bind_eq_ok, pure_result, Except.ok.injEq] at h
    obtain ⟨bodyCode, hbody, nextLines, hnext, rfl⟩ := h
    simp only [hostStepped, codeAll, HostStmt.code, bind_eq_ok, pure_result, Except.ok.injEq]
    exact ⟨_, ⟨_, ⟨bodyCode, hbody, nextLines, hnext, rfl⟩, rfl⟩, _, rfl, rfl⟩

theorem codeAll_singleton (stmt : HostStmt) : codeAll options [stmt] = stmt.code options := by
  simp [codeAll]

theorem writeDo_ok {context : Context} {cond body : Node} {lowered : List Code}
    (h : (writeDo options.reduceParentheses cond body (writeStmt options context.enterLoop false body)).result =
      .ok lowered) :
    containsJump .onlyContinue body = false ∧
      (codeAll options [.whileTrue [.body context.enterLoop body, .leaveUnless cond]]).result = .ok lowered := by
  simp only [writeDo, bind_eq_ok, guard_eq_ok, pure_result, Except.ok.injEq] at h
  obtain ⟨hcontinue, test, htest, bodyCode, hbody, rfl⟩ := h
  refine ⟨by simpa using hcontinue, ?_⟩
  simp only [codeAll, HostStmt.code, bind_eq_ok, pure_result, Except.ok.injEq]
  refine ⟨_, ⟨_, ⟨bodyCode, hbody, _, ⟨_, ⟨test, htest, rfl⟩, _, rfl, rfl⟩, rfl⟩, rfl⟩, _, rfl, ?_⟩
  simp [Code.orPass]

/-- The output of a `for` loop that does not count. -/
def hostFor (context : Context) (init cond next : Option Node) (split : SplitTest) (body : Node) : List HostStmt :=
  (init.map (HostStmt.effect context)).toList ++
    if cond.isSome && next.isNone then hostWhile context split body else hostStepped context cond next body

theorem writeFor_ok {context : Context} {init cond next : Option Node} {body : Node} {lowered : List Code}
    {initCode nextCode : Traced (List Code)} (hcounts : (SourceLoop.forLoop init cond next body).counts = false)
    (hinit : initCode = codeAll options (init.map (HostStmt.effect context)).toList)
    (hnext : nextCode = codeAll options (next.map (HostStmt.effect context)).toList)
    (h : (writeFor options.reduceParentheses init cond next body initCode
      (writeStmt options context.enterLoop false body) nextCode).result = .ok lowered) :
    ∃ split, (∀ test, cond = some test → next = none → splitTest test = .ok split ∧
        (∃ text, (renderExpr options.reduceParentheses split.cond).result = .ok text) ∧
        (split.after ≠ [] → containsJump .onlyContinue body = false)) ∧
      (next.isSome = true → containsJump .onlyContinue body = false) ∧
      (codeAll options (hostFor context init cond next split body)).result = .ok lowered := by
  have hnone : (do counting? (← init) (← cond) (← next)) = none := by
    cases init <;> cases cond <;> cases next <;> first | rfl | simpa [SourceLoop.counts] using hcounts
  rw [writeFor, hnone] at h
  simp only [bind_eq_ok, guard_eq_ok] at h
  obtain ⟨hcontinue, initLines, hinitLines, h⟩ := h
  rw [hinit] at hinitLines
  have hcode : ∀ {program : List HostStmt} {loop : List Code}, (codeAll options program).result = .ok loop →
      (codeAll options ((init.map (HostStmt.effect context)).toList ++ program)).result = .ok (initLines ++ loop) := by
    intro program loop hprogram
    simp only [codeAll_append, bind_eq_ok, pure_result, Except.ok.injEq]
    exact ⟨initLines, hinitLines, loop, hprogram, rfl⟩
  have hcontinue' : next.isSome = true → containsJump .onlyContinue body = false := by
    intro hsome
    simpa [hsome] using hcontinue
  split at h
  · rename_i test
    obtain ⟨loop, hloop, h⟩ := bind_eq_ok.mp h
    cases h
    obtain ⟨split, text, hsplit, htext, hafter, hprogram⟩ := writeWhile_ok hloop
    refine ⟨split, ?_, hcontinue', hcode hprogram⟩
    rintro _ ⟨⟩ -
    exact ⟨hsplit, ⟨text, htext⟩, hafter⟩
  · rename_i hstepped
    obtain ⟨loop, hloop, h⟩ := bind_eq_ok.mp h
    cases h
    have hprogram := writeSteppedLoop_ok hnext hloop
    -- there is no test to split, so any split will do
    refine ⟨default, ?_, hcontinue', ?_⟩
    · rintro test rfl rfl
      exact (hstepped test rfl rfl).elim
    · have hform : ¬(cond.isSome && next.isNone) = true := by
        cases cond with
        | none => simp
        | some test =>
          cases next with
          | none => exact (hstepped test rfl rfl).elim
          | some next => simp
      rw [hostFor, if_neg hform]
      exact hcode hprogram

/-! ### Rounds -/

namespace Machine

variable {σ V : Type} (machine : Machine σ V)

theorem testThen_thenAgain (cond : Node) (state : σ) (next : Bool → σ → Run σ) (again : σ → Run σ) :
    (machine.testThen cond state next).thenAgain again =
      machine.testThen cond state fun holds state => (next holds state).thenAgain again :=
  Run.after_thenAgain _ _ again

theorem runBody_ending {body : Node} (h : ∀ state, (machine.exec body state).1 ≠ .continued) (before : σ) :
    ∀ state, (machine.runBody body before).ending ≠ some (.continued, state) := by
  intro state heq
  have := h before
  rw [runBody, Option.some.injEq] at heq
  rw [heq] at this
  exact this rfl

theorem hostAll_singleton (fuel : Nat) (stmt : HostStmt) (state : σ) :
    machine.hostAll fuel [stmt] state = machine.host fuel stmt state := by
  rw [hostAll]
  exact Run.andThen_done _

theorem hostAll_steps (fuel : Nat) (steps : List Step) (rest : List HostStmt) (state : σ) :
    machine.hostAll fuel (hostSteps steps ++ rest) state = machine.hostAll fuel rest (machine.steps steps state) := by
  induction steps generalizing state with
  | nil => rfl
  | cons step others ih => exact ih (machine.step step state)

theorem hostAll_effect (fuel : Nat) (context : Context) (stmt : Option Node) (rest : List HostStmt) (state : σ) :
    machine.hostAll fuel ((stmt.map (HostStmt.effect context)).toList ++ rest) state =
      machine.hostAll fuel rest (machine.performAll stmt state) := by
  cases stmt <;> rfl

/-- A loop with the same tests and rounds as a `while` loop of the source does the same. -/
theorem repeatWhile_eq {cond test body : Node} {suite : σ → Run σ} (before : σ → σ)
    (htest : ∀ state next, machine.testThen cond (before state) next = machine.testThen test state next)
    (hsuite : ∀ state again,
      (suite state).thenAgain again = (machine.runBody body state).thenAgain fun state => again (before state))
    (fuel : Nat) (state : σ) :
    machine.repeatWhile cond suite fuel (before state) = machine.runFor (some test) none body fuel state := by
  induction fuel generalizing state with
  | zero => exact htest state _
  | succ fuel ih =>
    rw [repeatWhile, runFor, htest]
    simp only [testThen?, hsuite, ih]
    rfl

/-! ### Forms of loops -/

theorem testThen_splitsTo {reduce : Bool} {test : Node} {split : SplitTest} {text : String}
    (hsteps : test.hasSteps = true) (hsteady : SteadyTest test) (operators : machine.Operators)
    (h : splitTest test = .ok split)
    (htext : (renderExpr reduce split.cond).result = .ok text) (state : σ) (next : Bool → σ → Run σ) :
    machine.testThen split.cond (machine.steps split.before state) next = machine.testThen test state next := by
  have hsplits := splitsTo_splitTest operators hsteps hsteady h htext
  have hvalue : machine.eval split.cond (machine.steps split.before state) =
      ((machine.eval split.cond (machine.steps split.before state)).1, machine.steps split.before state) :=
    Prod.ext rfl (hsplits.still _)
  have hvariables : ∀ op operand, .unary op operand ∈ test.subexprs → Node.isStepOp op = true →
      ∃ name, operand = .ident name := by
    intro op operand hmem hop
    obtain ⟨-, name, hname, -⟩ := hsteady.prefixed op operand hmem hop
    exact ⟨name, hname⟩
  obtain ⟨htest, hcond⟩ := intValue?_splitTest hsteps hvariables h
  rw [testThen, testThen, htest, hcond, hsplits.eval_eq state, hvalue]

/-- The steps at the end of a body run ahead of what the loop goes on with. -/
theorem bodySteps_thenAgain {context : Context} {body : Node} {steps : List Step}
    (hcontinue : steps ≠ [] → ∀ state, (machine.exec body state).1 ≠ .continued) (fuel : Nat) (state : σ)
    (again : σ → Run σ) :
    (machine.hostAll fuel (.body context body :: hostSteps steps) state).thenAgain again =
      (machine.runBody body state).thenAgain fun state => again (machine.steps steps state) := by
  by_cases hnone : steps = []
  · -- the body may continue
    rw [hnone, hostSteps, List.map_nil, hostAll_singleton]
    rfl
  · have hsteps : ∀ state,
        machine.hostAll fuel (hostSteps steps) state = .done .normal (machine.steps steps state) := by
      intro state
      rw [← List.append_nil (hostSteps steps), hostAll_steps]
      rfl
    rw [hostAll, host, Run.andThen_thenAgain (machine.runBody_ending (hcontinue hnone) state)]
    simp only [hsteps]
    rfl

theorem hostAll_hostWhile {context : Context} {reduce : Bool} {test body : Node} {split : SplitTest} {text : String}
    (hsteady : test.hasSteps = true → SteadyTest test ∧ Nonempty machine.Operators) (h : splitTest test = .ok split)
    (htext : (renderExpr reduce split.cond).result = .ok text)
    (hcontinue : split.after ≠ [] → ∀ state, (machine.exec body state).1 ≠ .continued) (fuel : Nat) (state : σ) :
    machine.hostAll fuel (hostWhile context split body) state = machine.runFor (some test) none body fuel state := by
  rw [hostWhile, hostAll_steps, hostAll_singleton, host]
  cases hsteps : test.hasSteps with
  | false =>
    -- nothing is split off the test
    have hsplit : split = .pure test := by
      rcases splitTest_ok h with ⟨-, hsplit⟩ | ⟨hsome, -⟩
      · exact hsplit
      · rw [hsteps] at hsome
        cases hsome
    subst hsplit
    exact machine.repeatWhile_eq id (fun _ _ => rfl) (machine.bodySteps_thenAgain hcontinue fuel) fuel state
  | true =>
    -- the steps run ahead of the loop and again at the end of each round
    obtain ⟨hsteady, ⟨operators⟩⟩ := hsteady hsteps
    have hsplits := splitsTo_splitTest operators hsteps hsteady h htext
    refine machine.repeatWhile_eq (machine.steps split.before)
      (fun state next => machine.testThen_splitsTo hsteps hsteady operators h htext state next) (fun state again => ?_)
      fuel state
    rw [machine.bodySteps_thenAgain hcontinue, hsplits.after_eq]

/-- A suite that ends with a test does the rounds of a loop that tests first. -/
theorem runFor_eq_repeatSuite {test body : Node} {next : Option Node} {suite : σ → Run σ}
    (hsuite : ∀ state again, (suite state).thenAgain again = (machine.runBody body state).thenAgain fun state =>
      machine.testThen test (machine.performAll next state) fun holds state =>
        if holds then again state else .done .normal state) (fuel : Nat) (state : σ) :
    machine.runFor (some test) next body fuel state = machine.testThen test state fun holds state =>
      if holds then repeatSuite suite fuel state else .done .normal state := by
  induction fuel generalizing state with
  | zero => rfl
  | succ fuel ih =>
    rw [runFor]
    simp only [testThen?, ih, repeatSuite, hsuite]

theorem runFor_none_eq_repeatSuite {body : Node} {next : Option Node} {suite : σ → Run σ}
    (hsuite : ∀ state again, (suite state).thenAgain again =
      (machine.runBody body state).thenAgain fun state => again (machine.performAll next state))
    (fuel : Nat) (state : σ) : machine.runFor none next body fuel state = repeatSuite suite fuel state := by
  induction fuel generalizing state with
  | zero => rfl
  | succ fuel ih =>
    rw [runFor, repeatSuite, hsuite]
    simp only [testThen?, ih]
    rfl

theorem runDo_eq_repeatSuite {test body : Node} {suite : σ → Run σ}
    (hsuite : ∀ state again, (suite state).thenAgain again = (machine.runBody body state).thenAgain fun state =>
      machine.testThen test state fun holds state => if holds then again state else .done .normal state)
    (fuel : Nat) (state : σ) : machine.runDo test body fuel state = repeatSuite suite fuel state := by
  induction fuel generalizing state with
  | zero => rfl
  | succ fuel ih =>
    rw [runDo, repeatSuite, hsuite]
    simp only [ih]

private theorem leaveUnless_thenAgain (fuel : Nat) (test : Node) (state : σ) (again : σ → Run σ) :
    (machine.hostAll fuel [.leaveUnless test] state).thenAgain again =
      machine.testThen test state fun holds state => if holds then again state else .done .normal state := by
  rw [hostAll_singleton, host, testThen_thenAgain]
  congr 1
  funext holds state
  cases holds <;> rfl

theorem hostAll_hostStepped {context : Context} {cond next : Option Node} {body : Node}
    (hnext : cond.isSome = true → next.isSome = true)
    (hcontinue : next.isSome = true → ∀ state, (machine.exec body state).1 ≠ .continued) (fuel : Nat) (state : σ) :
    machine.hostAll fuel (hostStepped context cond next body) state = machine.runFor cond next body fuel state := by
  cases cond with
  | some test =>
    rw [hostStepped, hostAll_singleton, host]
    simp only [hostAll_singleton, host]
    refine (machine.runFor_eq_repeatSuite (fun state again => ?_) fuel state).symm
    rw [List.cons_append, hostAll, host,
      Run.andThen_thenAgain (machine.runBody_ending (hcontinue (hnext rfl)) state)]
    simp only [hostAll_effect, leaveUnless_thenAgain]
  | none =>
    rw [hostStepped, hostAll_singleton, host]
    refine (machine.runFor_none_eq_repeatSuite (fun state again => ?_) fuel state).symm
    cases next with
    | none =>
      rw [Option.map_none, Option.toList_none, hostAll_singleton]
      rfl
    | some next =>
      rw [hostAll, host, Run.andThen_thenAgain (machine.runBody_ending (hcontinue rfl) state)]
      rfl

theorem hostAll_hostDo {context : Context} {test body : Node}
    (hcontinue : ∀ state, (machine.exec body state).1 ≠ .continued) (fuel : Nat) (state : σ) :
    machine.hostAll fuel [.whileTrue [.body context body, .leaveUnless test]] state =
      machine.runDo test body fuel state := by
  rw [hostAll_singleton, host]
  refine (machine.runDo_eq_repeatSuite (fun state again => ?_) fuel state).symm
  rw [hostAll, host, Run.andThen_thenAgain (machine.runBody_ending hcontinue state)]
  simp only [leaveUnless_thenAgain]

/-- A loop that tests zero after its body runs the body once, which then is all there is to run. -/
theorem runDo_zero {test body : Node} (htest : test.intValue? = some 0)
    (hjumps : ∀ state, (machine.exec body state).1 ≠ .continued ∧ (machine.exec body state).1 ≠ .broke) (fuel : Nat)
    (state : σ) : machine.runDo test body (fuel + 1) state = machine.runBody body state := by
  obtain ⟨hcontinued, hbroke⟩ := hjumps state
  rw [runDo, runBody]
  cases hexec : machine.exec body state with
  | mk outcome final =>
    rw [hexec] at hcontinued hbroke
    cases outcome with
    | normal =>
      obtain ⟨hfalse, hstill⟩ := machine.eval_intValue htest final
      simp [Run.thenAgain, testThen, htest, hfalse, hstill, Run.after, Run.done]
    | broke => exact absurd rfl hbroke
    | continued => exact absurd rfl hcontinued
    | returned => rfl

end Machine

/-! ### All loops -/

private theorem initCode_eq (context : Context) (stmt : Option Node) :
    (match stmt with
      | some stmt => writeStmt options context false stmt
      | none => pure []) = codeAll options (stmt.map (HostStmt.effect context)).toList := by
  cases stmt with
  | none => rfl
  | some stmt => exact (codeAll_singleton (.effect context stmt)).symm

theorem writeStmt_forLoop {context : Context} (after : Bool) (init cond next : Option Node) (body : Node) :
    writeStmt options context after (.forLoop init cond next body) = (do
      return elseCode after (← writeFor options.reduceParentheses init cond next body
        (codeAll options (init.map (HostStmt.effect context)).toList) (writeStmt options context.enterLoop false body)
        (codeAll options (next.map (HostStmt.effect context)).toList))) := by
  rw [← initCode_eq, ← initCode_eq]
  cases init <;> cases next <;> rfl

theorem writeStmt_whileLoop {context : Context} (after : Bool) (cond body : Node) :
    writeStmt options context after (.whileLoop cond body) = (do
      return elseCode after (← writeWhile options.reduceParentheses cond body
        (writeStmt options context.enterLoop false body))) := rfl

private theorem writeStmt_doLoop {context : Context} (after : Bool) (cond body : Node) :
    writeStmt options context after (.doLoop cond body) =
      if cond.intValue? = some 0 && !containsJump .both body then do
        return elseCode after (← writeStmt options context false body)
      else do
        return elseCode after (← writeDo options.reduceParentheses cond body
          (writeStmt options context.enterLoop false body)) := rfl

/-- The output of a loop that does not count runs as the loop does, on every machine that continues and breaks only
where the body has such jumps, and that knows the operators of a test with steps. -/
theorem hostAll_eq_run (options : UnitOptions) (context : Context) (after : Bool) (loop : SourceLoop) {code : List Code}
    (h : (writeStmt options context after loop.node).result = .ok code) (hcounts : loop.counts = false) :
    ∃ program lowered, code = elseCode after lowered ∧ (codeAll options program).result = .ok lowered ∧
      ∀ {σ V : Type} (machine : Machine σ V),
        (∀ test, loop.test? = some test → test.hasSteps = true → SteadyTest test ∧ Nonempty machine.Operators) →
        (∀ state, (machine.exec loop.body state).1 = .continued → containsJump .onlyContinue loop.body = true) →
        (loop.runsOnce = true →
          ∀ state, (machine.exec loop.body state).1 = .broke → containsJump .onlyBreak loop.body = true) →
        ∀ fuel state, machine.hostAll (fuel + 1) program state = loop.run machine (fuel + 1) state := by
  have hnever : ∀ {σ V : Type} (machine : Machine σ V) {body : Node}, containsJump .onlyContinue body = false →
      (∀ state, (machine.exec body state).1 = .continued → containsJump .onlyContinue body = true) →
      ∀ state, (machine.exec body state).1 ≠ .continued := by
    intro σ V machine body hnone hcontinued state heq
    rw [hcontinued state heq] at hnone
    cases hnone
  cases loop with
  | forLoop init cond next body =>
    rw [SourceLoop.node, writeStmt_forLoop] at h
    obtain ⟨lowered, hlowered, h⟩ := bind_eq_ok.mp h
    cases h
    obtain ⟨split, hsplit, hcontinue, hcode⟩ := writeFor_ok hcounts rfl rfl hlowered
    refine ⟨_, lowered, rfl, hcode, ?_⟩
    intro σ V machine hsteady hcontinued _ fuel state
    rw [hostFor, Machine.hostAll_effect, SourceLoop.run]
    cases cond with
    | none =>
      rw [if_neg (by simp)]
      exact machine.hostAll_hostStepped (by simp) (fun hsome => hnever machine (hcontinue hsome) hcontinued) _ _
    | some test =>
      cases next with
      | none =>
        obtain ⟨hsplit, ⟨text, htext⟩, hafter⟩ := hsplit test rfl rfl
        exact machine.hostAll_hostWhile (hsteady test rfl) hsplit htext
          (fun hne => hnever machine (hafter hne) hcontinued) _ _
      | some next =>
        rw [if_neg (by simp)]
        exact machine.hostAll_hostStepped (by simp) (fun hsome => hnever machine (hcontinue hsome) hcontinued) _ _
  | whileLoop test body =>
    rw [SourceLoop.node, writeStmt_whileLoop] at h
    obtain ⟨lowered, hlowered, h⟩ := bind_eq_ok.mp h
    cases h
    obtain ⟨split, text, hsplit, htext, hafter, hcode⟩ := writeWhile_ok hlowered
    refine ⟨_, lowered, rfl, hcode, ?_⟩
    intro σ V machine hsteady hcontinued _ fuel state
    exact machine.hostAll_hostWhile (hsteady test rfl) hsplit htext
      (fun hne => hnever machine (hafter hne) hcontinued) _ _
  | doLoop test body =>
    rw [SourceLoop.node, writeStmt_doLoop] at h
    split at h
    · -- the body stands without a loop
      rename_i honce
      simp only [Bool.and_eq_true, decide_eq_true_eq, Bool.not_eq_true'] at honce
      obtain ⟨hbreak, hcontinue⟩ := containsJump_both honce.2
      obtain ⟨lowered, hlowered, h⟩ := bind_eq_ok.mp h
      cases h
      refine ⟨[.body context body], lowered, rfl, (codeAll_singleton _).symm ▸ hlowered, ?_⟩
      intro σ V machine _ hcontinued hbroke fuel state
      rw [Machine.hostAll_singleton, Machine.host, SourceLoop.run, machine.runDo_zero honce.1]
      refine fun state => ⟨hnever machine hcontinue hcontinued state, fun heq => ?_⟩
      have := hbroke (by simpa [SourceLoop.runsOnce] using honce.1) state heq
      rw [SourceLoop.body, hbreak] at this
      cases this
    · obtain ⟨lowered, hlowered, h⟩ := bind_eq_ok.mp h
      cases h
      obtain ⟨hcontinue, hcode⟩ := writeDo_ok hlowered
      refine ⟨_, lowered, rfl, hcode, ?_⟩
      intro σ V machine _ hcontinued _ fuel state
      exact machine.hostAll_hostDo (hnever machine hcontinue hcontinued) _ _

/-! ### Integer variables -/

/-- A step of a variable. -/
def stepStore (step : Step) (store : String → Int) : String → Int :=
  match step.operand with
  | .ident name => fun other =>
    if other = name then (if step.op = "++" then store name + 1 else store name - 1) else store other
  | _ => store

/-- The value of an operation; comparisons other than `>` are not among them. -/
def operate (op : String) (l r : Int) : Int :=
  if op = "&&" then (if l ≠ 0 ∧ r ≠ 0 then 1 else 0)
  else if op = "||" then (if l ≠ 0 ∨ r ≠ 0 then 1 else 0)
  else if op = ">" then (if l > r then 1 else 0)
  else l - r

/-- Evaluates integer expressions. -/
def evalStore : Node → (String → Int) → Int × (String → Int)
  | .ident name, store => (store name, store)
  | .unary op (.ident name), store =>
    if op ∈ ["++", "--"] then (stepStore ⟨op, .ident name⟩ store name, stepStore ⟨op, .ident name⟩ store)
    else (0, store)
  | .binary op left right, store =>
    let l := evalStore left store
    let r := evalStore right l.2
    if op ∈ ["&&", "||"] ∧ ¬decide (l.1 ≠ 0) = (op = "&&") then (if l.1 ≠ 0 then 1 else 0, l.2)
    else (operate op l.1 r.1, r.2)
  | expr, store => (expr.intValue?.getD 0, store)
termination_by structural expr => expr

/-- The machine of integer variables, for a body that does `exec`. -/
def storeMachine (exec : (String → Int) → Outcome × (String → Int)) : Machine (String → Int) Int where
  eval := evalStore
  truth value := value ≠ 0
  step := stepStore
  perform _ store := store
  exec _ := exec
  eval_intValue := by
    intro node value h store
    cases node with
    | constant type text => simp [evalStore, h]
    | _ => cases h

private theorem Effectless.operands {op : String} {left right : Node} (h : Effectless (.binary op left right)) :
    Effectless left ∧ Effectless right := by
  have hsubexprs : (Node.binary op left right).subexprs =
      .binary op left right :: (left.subexprs ++ right.subexprs) := by rw [Node.subexprs]
  rw [Effectless, hsubexprs] at h
  exact ⟨fun sub hsub => h sub (by simp [hsub]), fun sub hsub => h sub (by simp [hsub])⟩

private theorem Effectless.notMem_steps {op : String} {operand : Node} (h : Effectless (.unary op operand)) :
    op ∉ ["++", "--"] := by
  intro hop
  have := h (.unary op operand) (by rw [Node.subexprs]; exact List.mem_cons_self ..)
  simp only [List.mem_cons, List.not_mem_nil, or_false] at hop
  rcases hop with rfl | rfl <;> cases this

private theorem evalStore_binary (op : String) {left right : Node} {store : String → Int}
    (hl : (evalStore left store).2 = store) (hr : (evalStore right store).2 = store) :
    evalStore (.binary op left right) store =
      (operate op (evalStore left store).1 (evalStore right store).1, store) := by
  simp only [evalStore, hl, hr]
  split
  · rename_i hshort
    obtain ⟨hop, hleft⟩ := hshort
    simp only [List.mem_cons, List.not_mem_nil, or_false] at hop
    rcases hop with rfl | rfl
    · have hzero : (evalStore left store).1 = 0 := by simpa using hleft
      simp [operate, hzero]
    · have hnonzero : (evalStore left store).1 ≠ 0 := by simpa using hleft
      simp [operate, hnonzero]
  · rfl

theorem evalStore_effectless {expr : Node} (store : String → Int) (h : Effectless expr) :
    (evalStore expr store).2 = store := by
  induction expr, store using evalStore.induct with
  | case1 => rfl
  | case2 _ _ _ hop => exact absurd hop h.notMem_steps
  | case3 _ _ _ hop => rw [evalStore, if_neg hop]
  | case4 op left right store l _ ihl ihr =>
    have hl : l.2 = store := ihl h.operands.1
    rw [evalStore_binary op hl (by rw [hl] at ihr; exact ihr h.operands.2)]
  | case5 op left right store l _ ihl ihr =>
    have hl : l.2 = store := ihl h.operands.1
    rw [evalStore_binary op hl (by rw [hl] at ihr; exact ihr h.operands.2)]
  | case6 expr store hident hunary hbinary => rw [evalStore] <;> assumption

theorem evalStore_unused {expr : Node} {name : String} (op : String) (store : String → Int) (h : Effectless expr)
    (hunused : ∀ sub ∈ expr.subexprs, sub.isVariable name = false) :
    (evalStore expr (stepStore ⟨op, .ident name⟩ store)).1 = (evalStore expr store).1 := by
  have hbinary : ∀ {op' : String} {left right : Node} {store : String → Int}, Effectless (.binary op' left right) →
      (evalStore left (stepStore ⟨op, .ident name⟩ store)).1 = (evalStore left store).1 →
      (evalStore right (stepStore ⟨op, .ident name⟩ store)).1 = (evalStore right store).1 →
      (evalStore (.binary op' left right) (stepStore ⟨op, .ident name⟩ store)).1 =
        (evalStore (.binary op' left right) store).1 := by
    intro op' left right store h hl hr
    rw [evalStore_binary op' (evalStore_effectless _ h.operands.1) (evalStore_effectless _ h.operands.2),
      evalStore_binary op' (evalStore_effectless _ h.operands.1) (evalStore_effectless _ h.operands.2), hl, hr]
  have hparts : ∀ {op' : String} {left right : Node}, (∀ sub ∈ (Node.binary op' left right).subexprs,
      sub.isVariable name = false) → (∀ sub ∈ left.subexprs, sub.isVariable name = false) ∧
        ∀ sub ∈ right.subexprs, sub.isVariable name = false := by
    intro op' left right hunused
    rw [Node.subexprs] at hunused
    exact ⟨fun sub hsub => hunused sub (by simp [hsub]), fun sub hsub => hunused sub (by simp [hsub])⟩
  induction expr, store using evalStore.induct with
  | case1 other store =>
    have hother : other ≠ name := by simpa [Node.isVariable] using hunused (.ident other) (List.mem_singleton.mpr rfl)
    simp [evalStore, stepStore, hother]
  | case2 _ _ _ hop => exact absurd hop h.notMem_steps
  | case3 _ _ _ hop => rw [evalStore, evalStore, if_neg hop, if_neg hop]
  | case4 op' left right store l _ ihl ihr =>
    have hl : l.2 = store := evalStore_effectless store h.operands.1
    rw [hl] at ihr
    exact hbinary h (ihl h.operands.1 (hparts hunused).1) (ihr h.operands.2 (hparts hunused).2)
  | case5 op' left right store l _ ihl ihr =>
    have hl : l.2 = store := evalStore_effectless store h.operands.1
    rw [hl] at ihr
    exact hbinary h (ihl h.operands.1 (hparts hunused).1) (ihr h.operands.2 (hparts hunused).2)
  | case6 expr store hident hunary hbinary => rw [evalStore, evalStore] <;> assumption

/-- Integer variables know the operators of tests. -/
def storeOperators (exec : (String → Int) → Outcome × (String → Int)) : (storeMachine exec).Operators where
  combine := operate
  ofBool holds := if holds then 1 else 0
  eval_strict left right store hop := by
    show evalStore _ store = _
    rw [evalStore, if_neg (fun hlazy => hop hlazy.1)]
    rfl
  eval_lazy left right store hop := by
    simp only [List.mem_cons, List.not_mem_nil, or_false] at hop
    show evalStore _ store = _
    rcases hop with rfl | rfl
    · by_cases hl : (evalStore left store).1 = 0 <;> simp [evalStore, storeMachine, operate, hl]
    · by_cases hl : (evalStore left store).1 = 0 <;> simp [evalStore, storeMachine, operate, hl]
  eval_step name store hop := by
    show evalStore _ store = _
    rw [evalStore, if_pos hop]
    rfl
  eval_effectless store h := evalStore_effectless store h
  eval_unused op store h hunused := evalStore_unused op store h hunused

/-- `while (--n > 0) { if (m) break; }`. -/
def countdown : SourceLoop :=
  .whileLoop (.binary ">" (.unary "--" (.ident "n")) (.constant "int" "0"))
    (.block [.ifElse (.ident "m") .breakJump none])

/-- The body breaks when `m` is not zero. -/
def breaking (store : String → Int) : Outcome × (String → Int) := (if store "m" = 0 then .normal else .broke, store)

theorem hostAll_countdown : ∃ program code, (writeStmt {} .outermost false countdown.node).result = .ok code ∧
    (codeAll {} program).result = .ok code ∧ ∀ fuel store,
      (storeMachine breaking).hostAll (fuel + 1) program store =
        countdown.run (storeMachine breaking) (fuel + 1) store := by
  have haccepted : (writeStmt {} .outermost false countdown.node).result.isOk = true := by decide +kernel
  obtain ⟨code, hcode⟩ : ∃ code, (writeStmt {} .outermost false countdown.node).result = .ok code := by
    cases hresult : (writeStmt {} .outermost false countdown.node).result with
    | ok code => exact ⟨code, rfl⟩
    | error cause =>
      rw [hresult] at haccepted
      cases haccepted
  have hsteady : SteadyTest (.binary ">" (.unary "--" (.ident "n")) (.constant "int" "0")) := by
    constructor
    · intro op operand hmem hstep
      simp only [Node.subexprs, List.mem_cons, List.mem_append, List.not_mem_nil, or_false, reduceCtorEq, false_or,
        Node.unary.injEq] at hmem
      obtain ⟨rfl, rfl⟩ := hmem
      exact ⟨by decide, "n", rfl, by decide⟩
    · intro sub hmem hchanges
      simp only [Node.subexprs, List.mem_cons, List.mem_append, List.not_mem_nil, or_false] at hmem
      rcases hmem with rfl | (rfl | rfl) | rfl <;> first | rfl | cases hchanges
  obtain ⟨program, lowered, rfl, hprogram, hrun⟩ := hostAll_eq_run {} .outermost false countdown hcode rfl
  refine ⟨program, _, hcode, hprogram, hrun (storeMachine breaking) ?_ ?_ ?_⟩
  · rintro test ⟨⟩ -
    exact ⟨hsteady, ⟨storeOperators _⟩⟩
  · intro store hcontinued
    exfalso
    revert hcontinued
    show (if store "m" = 0 then Outcome.normal else .broke) ≠ .continued
    split <;> simp
  · intro honce
    cases honce

end StubGen.CUnit
