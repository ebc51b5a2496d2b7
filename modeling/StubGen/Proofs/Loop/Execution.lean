import StubGen.CUnit.Statement

/-!
# Running loops

A `Machine` gives tests and statements a meaning on states.  The loops of the source and their output run on it, and a
`Run` records what happens: each test, each run of the body, and how the loop ends.

* `SourceLoop.run` runs a loop of the source.
* `HostStmt` is a statement of the output of a loop; `HostStmt.code` is its layout, and `Machine.host` runs it.

A loop may run forever, so a run stops before the body would run once more than `fuel` allows.  Loops that agree for
all fuel agree on what they do, also where they do not end.
-/

namespace StubGen.CUnit

/-- How a statement ends. -/
inductive Outcome where
  | normal
  | broke
  | continued
  | returned
  deriving DecidableEq, Repr

/-- What a loop does: a test with its result and the state after it, or a run of the body from a state. -/
inductive Event (σ : Type) where
  | test (holds : Bool) (after : σ)
  | body (before : σ)

/-- The events of a run and its end; none if it was stopped. -/
structure Run (σ : Type) where
  events : List (Event σ)
  ending : Option (Outcome × σ)

namespace Run

variable {σ : Type}

def stopped : Run σ := ⟨[], none⟩

def done (outcome : Outcome) (state : σ) : Run σ := ⟨[], some (outcome, state)⟩

/-- A run after other events. -/
def after (events : List (Event σ)) (run : Run σ) : Run σ := ⟨events ++ run.events, run.ending⟩

/-- The states in which the body starts. -/
def entries (run : Run σ) : List σ :=
  run.events.filterMap fun
    | .test .. => none
    | .body before => some before

/-- Goes on with `next` if the run ends normally. -/
def andThen (run : Run σ) (next : σ → Run σ) : Run σ :=
  match run.ending with
  | some (.normal, state) => after run.events (next state)
  | _ => run

/-- Goes on after a run of the body of a loop: with `again`, unless it leaves the loop. -/
def thenAgain (body : Run σ) (again : σ → Run σ) : Run σ :=
  match body.ending with
  | some (.normal, state) | some (.continued, state) => after body.events (again state)
  | some (.broke, state) => ⟨body.events, some (.normal, state)⟩
  | _ => body

end Run

/-- A meaning of tests and statements on the states `σ`, with values `V`.  Evaluating a test may change the state. -/
structure Machine (σ V : Type) where
  eval : Node → σ → V × σ
  truth : V → Bool
  step : Step → σ → σ
  /-- What an initializer or a step of a `for` loop does. -/
  perform : Node → σ → σ
  /-- What the body of a loop does. -/
  exec : Node → σ → Outcome × σ
  eval_intValue : ∀ {node : Node} {value : Int}, node.intValue? = some value →
    ∀ state, truth (eval node state).1 = (value ≠ 0) ∧ (eval node state).2 = state

namespace Machine

variable {σ V : Type} (machine : Machine σ V)

/-- Evaluates a test and goes on with its result.  The test of an integer constant leaves no trace. -/
def testThen (cond : Node) (state : σ) (next : Bool → σ → Run σ) : Run σ :=
  let (value, changed) := machine.eval cond state
  let holds := machine.truth value
  Run.after (if cond.intValue?.isSome then [] else [.test holds changed]) (next holds changed)

/-- Runs the body of a loop. -/
def runBody (body : Node) (state : σ) : Run σ := ⟨[.body state], some (machine.exec body state)⟩

def performAll (stmt : Option Node) (state : σ) : σ := (stmt.map (machine.perform · state)).getD state

/-- Evaluates the test of a `for` loop; without one the loop goes on. -/
def testThen? (cond : Option Node) (state : σ) (next : Bool → σ → Run σ) : Run σ :=
  match cond with
  | some cond => machine.testThen cond state next
  | none => next true state

/-- A `for` loop after its initializer: test, body and step over and over. -/
def runFor (cond next : Option Node) (body : Node) : Nat → σ → Run σ
  | 0, state => machine.testThen? cond state fun holds state => if holds then .stopped else .done .normal state
  | fuel + 1, state => machine.testThen? cond state fun holds state =>
    if holds then
      (machine.runBody body state).thenAgain fun state => runFor cond next body fuel (machine.performAll next state)
    else .done .normal state

/-- A loop that tests after its body. -/
def runDo (cond body : Node) : Nat → σ → Run σ
  | 0, _ => .stopped
  | fuel + 1, state => (machine.runBody body state).thenAgain fun state =>
    machine.testThen cond state fun holds state => if holds then runDo cond body fuel state else .done .normal state

end Machine

/-- A loop of the source. -/
inductive SourceLoop where
  | forLoop (init cond next : Option Node) (body : Node)
  | whileLoop (cond body : Node)
  | doLoop (cond body : Node)

namespace SourceLoop

def node : SourceLoop → Node
  | forLoop init cond next body => .forLoop init cond next body
  | whileLoop cond body => .whileLoop cond body
  | doLoop cond body => .doLoop cond body

def body : SourceLoop → Node
  | forLoop _ _ _ body | whileLoop _ body | doLoop _ body => body

def test? : SourceLoop → Option Node
  | forLoop _ cond _ _ => cond
  | whileLoop cond _ | doLoop cond _ => some cond

/-- Whether the loop counts, so that its output runs over a range. -/
def counts : SourceLoop → Bool
  | forLoop (some init) (some cond) (some next) _ => (counting? init cond next).isSome
  | _ => false

/-- Whether the loop is the usual wrapper of a body that runs once. -/
def runsOnce : SourceLoop → Bool
  | doLoop cond _ => cond.intValue? = some 0
  | _ => false

def run {σ V : Type} (machine : Machine σ V) (fuel : Nat) : SourceLoop → σ → Run σ
  | forLoop init cond next body, state => machine.runFor cond next body fuel (machine.performAll init state)
  | whileLoop cond body, state => machine.runFor (some cond) none body fuel state
  | doLoop cond body, state => machine.runDo cond body fuel state

end SourceLoop

/-! ### The output -/

/-- A statement of the output of a loop. -/
inductive HostStmt where
  /-- The code of an initializer or a step of a `for` loop. -/
  | effect (context : Context) (stmt : Node)
  /-- The code of the body of the loop. -/
  | body (context : Context) (stmt : Node)
  | step (step : Step)
  | whileTest (cond : Node) (suite : List HostStmt)
  | whileTrue (suite : List HostStmt)
  | ifTest (cond : Node) (suite : List HostStmt)
  | leaveUnless (cond : Node)

mutual

/-- The layout of a statement. -/
def HostStmt.code (options : UnitOptions) : HostStmt → Traced (List Code)
  | .effect context stmt | .body context stmt => writeStmt options context false stmt
  | .step step => do return [← writeStep options.reduceParentheses step]
  | .whileTest cond suite => do
    let test ← renderExpr options.reduceParentheses cond
    return [.suite ("while " ++ test ++ ":") (Code.orPass (← codeAll options suite))]
  | .whileTrue suite => do return [.suite "while True:" (Code.orPass (← codeAll options suite))]
  | .ifTest cond suite => do
    let test ← renderExpr options.reduceParentheses cond
    return [.suite ("if " ++ test ++ ":") (Code.orPass (← codeAll options suite))]
  | .leaveUnless cond => do return [leaveUnless (← renderExpr options.reduceParentheses cond)]
termination_by structural stmt => stmt

/-- The layout of statements, one after the other. -/
def codeAll (options : UnitOptions) : List HostStmt → Traced (List Code)
  | [] => pure []
  | stmt :: rest => do return (← HostStmt.code options stmt) ++ (← codeAll options rest)
termination_by structural stmts => stmts

end

namespace Machine

variable {σ V : Type} (machine : Machine σ V)

/-- Runs a suite over and over. -/
def repeatSuite (suite : σ → Run σ) : Nat → σ → Run σ
  | 0, _ => .stopped
  | fuel + 1, state => (suite state).thenAgain (repeatSuite suite fuel)

/-- Runs a suite as long as a test holds. -/
def repeatWhile (cond : Node) (suite : σ → Run σ) : Nat → σ → Run σ
  | 0, state => machine.testThen cond state fun holds state => if holds then .stopped else .done .normal state
  | fuel + 1, state => machine.testThen cond state fun holds state =>
    if holds then (suite state).thenAgain (repeatWhile cond suite fuel) else .done .normal state

mutual

/-- Runs a statement of the output. -/
def host (fuel : Nat) : HostStmt → σ → Run σ
  | .effect _ stmt, state => .done .normal (machine.perform stmt state)
  | .body _ stmt, state => machine.runBody stmt state
  | .step step, state => .done .normal (machine.step step state)
  | .whileTest cond suite, state => machine.repeatWhile cond (fun state => hostAll fuel suite state) fuel state
  | .whileTrue suite, state => repeatSuite (fun state => hostAll fuel suite state) fuel state
  | .ifTest cond suite, state =>
    machine.testThen cond state fun holds state => if holds then hostAll fuel suite state else .done .normal state
  | .leaveUnless cond, state =>
    machine.testThen cond state fun holds state => .done (if holds then .normal else .broke) state
termination_by structural stmt => stmt

/-- Runs statements of the output, one after the other. -/
def hostAll (fuel : Nat) : List HostStmt → σ → Run σ
  | [], state => .done .normal state
  | stmt :: rest, state => (host fuel stmt state).andThen (hostAll fuel rest)
termination_by structural stmts => stmts

end

end Machine

end StubGen.CUnit
