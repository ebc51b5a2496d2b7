import StubGen.Proofs.Effect.Purity
import StubGen.Proofs.Switch.Lowering

/-!
# Discriminants with effects

A discriminant in which `hasEffects` finds a call, an assignment or a step stands in the output once, as the subject of
a `match`, so the output evaluates it once, as C does (`run_hostSwitch`).  Where it finds none the guards of the cases
evaluate the discriminant again, and a switch without labels has no output, so that its discriminant is not evaluated at
all (`run_unlabelledSwitch`).

* `HostSwitch` is the output of a switch, and `HostSwitch.Lowers` its layout.
* `HostSwitch.run` runs it with a discriminant that changes the state each time it is evaluated.
-/

namespace StubGen.CUnit

open Traced

/-- The output of a switch: a `match` over the discriminant, or a chain of tests on it. -/
inductive HostSwitch where
  | cases (branches : List Branch)
  | chain (branches : List Branch)

/-- Code that is the layout of the output of a switch. -/
def HostSwitch.Lowers (options : UnitOptions) (context : Context) (cond : Node) : HostSwitch → List Code → Prop
  | .cases branches, code => ∃ subject suites, (renderExpr options.reduceParentheses cond).result = .ok subject ∧
    code = [.suite ("match " ++ subject ++ ":") suites] ∧
    List.Forall₂ (fun branch code => ∃ header, IsHeader options.reduceParentheses cond branch.test header ∧
      IsSuite options context header branch.stmts code) branches suites
  | .chain branches, code => IsChain options context cond true branches code

/-! ### Running -/

section Values

variable {V σ : Type} [DecidableEq V] (value : Node → V) (next : σ → V × σ)

/-- Tries comparisons of the discriminant with labels, up to the first that holds.  Each of them evaluates the
discriminant. -/
def runComparisons : Node → σ → Bool × σ
  | .binary op left right, state =>
    if op = "||" then
      let first := runComparisons left state
      if first.1 then first else runComparisons right first.2
    else
      let subject := next state
      (op == "==" && subject.1 = value right, subject.2)
  | _, state => (false, state)
termination_by structural test => test

/-- Tries a test.  The subject of a `match` has its value already. -/
def Test.run (subject : Option V) : Test → σ → Bool × σ
  | .always, state => (true, state)
  | .among labels, state => (labels.any fun label => subject = some (value label), state)
  | .guard test, state => runComparisons value next test state

/-- The statements of the first branch whose test holds, and the state after the tests. -/
def runBranches (subject : Option V) : List Branch → σ → List Node × σ
  | [], state => ([], state)
  | branch :: rest, state =>
    let tried := branch.test.run value next subject state
    if tried.1 then (branch.stmts, tried.2) else runBranches subject rest tried.2

/-- The statements that the output of a switch selects, and the state after it.  `next` evaluates the discriminant. -/
def HostSwitch.run : HostSwitch → σ → List Node × σ
  | .cases branches, state =>
    let subject := next state
    runBranches value next (some subject.1) branches subject.2
  | .chain branches, state => runBranches value next none branches state

/-- Whether a test evaluates the discriminant. -/
def Test.isGuard : Test → Bool
  | .guard _ => true
  | _ => false

/-- Branches without guards do not evaluate the discriminant. -/
theorem runBranches_unguarded {branches : List Branch} (h : ∀ branch ∈ branches, branch.test.isGuard = false) (v : V)
    (state : σ) : runBranches value next (some v) branches state = (selected value v branches, state) := by
  induction branches with
  | nil => rfl
  | cons branch rest ih =>
    obtain ⟨hbranch, hrest⟩ := List.forall_mem_cons.mp h
    have hrun : branch.test.run value next (some v) state = (branch.test.holds value v, state) := by
      cases htest : branch.test with
      | always => rfl
      | among labels => simp [Test.run, Test.holds, eq_comm]
      | guard test =>
        rw [htest] at hbranch
        cases hbranch
    rw [runBranches, hrun, selected, List.find?_cons]
    cases branch.test.holds value v with
    | true => rfl
    | false => exact ih hrest

end Values

/-! ### Acceptance -/

variable {options : UnitOptions} {context : Context} {cond : Node}

/-- A discriminant with effects is in no guard. -/
theorem isGuard_caseTest {reduce : Bool} {arm : Arm TracedCode} {header : String} (heffects : cond.hasEffects = true)
    (h : (caseHeader reduce cond arm).result = .ok header) : (caseTest cond arm).isGuard = false := by
  rw [caseHeader] at h
  rw [caseTest]
  split at h
  · rw [if_pos ‹_›]
    rfl
  · rw [if_neg ‹_›]
    change (patterns? reduce arm.values >>= _).result = _ at h
    obtain ⟨found, hfound, h⟩ := bind_eq_ok.mp h
    have hpatterns := patterns_ok hfound
    cases found with
    | some texts =>
      rw [if_pos hpatterns.1]
      rfl
    | none => cases h

theorem isGuard_writeMatch {reduce : Bool} {arms : List (Arm TracedCode)} {code : List Code}
    (heffects : cond.hasEffects = true)
    (h : (writeMatch reduce cond arms).result = .ok code) :
    ∀ branch ∈ (matchOrder arms).map (caseBranch cond), branch.test.isGuard = false := by
  intro branch hbranch
  obtain ⟨arm, harm, rfl⟩ := List.mem_map.mp hbranch
  obtain ⟨subject, -, h⟩ := bind_eq_ok.mp h
  obtain ⟨suites, hsuites, -⟩ := bind_eq_ok.mp h
  obtain ⟨suite, -, hsuite⟩ := exists_mem_of_mapM_eq_ok hsuites arm harm
  obtain ⟨header, hheader, -⟩ := bind_eq_ok.mp hsuite
  exact isGuard_caseTest heffects hheader

/-- Arms that run into the next one need a discriminant that changes nothing. -/
theorem changesState_writeFallthrough {reduce : Bool} {arms : List (Arm TracedCode)} {code : List Code}
    (h : (writeFallthrough reduce cond arms).result = .ok code) : ∀ sub ∈ cond.visited, sub.changesState = false := by
  unfold writeFallthrough at h
  split at h
  · simp [Node.visited_ident, Node.changesState, Node.isStep]
  · simp [Node.visited_eq, Node.visitedParts, Node.changesState, Node.isStep]
  · cases h

/-- The output of a switch on a discriminant with calls, assignments or steps.  If there is a label, and `hasEffects`
finds one of them or passes over nothing but names, the output evaluates the discriminant once and selects the
statements that the switch executes for its value.  Without labels there is no output. -/
theorem run_hostSwitch (options : UnitOptions) (context : Context) (after : Bool) (cond body : Node)
    {code : List Code} (h : (writeStmt options context after (.switch cond body)).result = .ok code)
    (hchanges : ∃ sub ∈ cond.visited, sub.changesState = true) :
    ∃ (host : HostSwitch) (lowered : List Code), code = elseCode after lowered ∧
      host.Lowers options (context.enterLoop.withSkip .onlyBreak) cond lowered ∧
      (labelsOf (partsOf (switchItems body)) = [] → lowered = []) ∧
      (cond.hasEffects = true ∨ cond.Plain →
        ∀ {V σ : Type} [DecidableEq V] (value : Node → V) (next : σ → V × σ) (state : σ),
          (host.run value next state).2 =
            (if labelsOf (partsOf (switchItems body)) = [] then state else (next state).2) ∧
          (((labelsOf (partsOf (switchItems body))).map (·.key value)).Nodup →
            (host.run value next state).1 = executed value (next state).1 (partsOf (switchItems body)))) := by
  obtain ⟨sub, hsub, hchanges⟩ := hchanges
  have heffects : cond.hasEffects = true ∨ cond.Plain → cond.hasEffects = true :=
    fun hseen => hseen.elim id fun hplain => hplain.hasEffects_of_mem hsub hchanges
  have hskip : (context.enterLoop.withSkip .onlyBreak).skip.breaks = true := rfl
  rw [writeStmt_switch] at h
  obtain ⟨lowered, hlowered, h⟩ := bind_eq_ok.mp h
  cases h
  obtain ⟨arms, harms, hlowered⟩ := bind_eq_ok.mp hlowered
  obtain ⟨hparts, hvalid⟩ := armsOf_parts harms
  have hlabels : ∀ arm ∈ arms, arm.labels ≠ [] := fun arm harm => (hvalid arm harm).labels_ne
  rw [hparts, labelsOf_parts]
  split at hlowered
  · -- a switch without labels
    have hnone : arms = [] := by simpa using ‹arms.isEmpty = true›
    subst hnone
    cases hlowered
    exact ⟨.chain [], [], rfl, .nil, fun _ => rfl, fun _ _ _ _ value next state => ⟨rfl, fun _ => rfl⟩⟩
  · rename_i hsome
    have hlabelled : arms.flatMap Arm.labels ≠ [] := by
      intro hnone
      obtain ⟨arm, rest, rfl⟩ := List.exists_cons_of_ne_nil (l := arms) (by simpa using hsome)
      exact hlabels arm (List.mem_cons_self ..) (List.flatMap_eq_nil_iff.mp hnone arm (List.mem_cons_self ..))
    split at hlowered
    · rw [changesState_writeFallthrough hlowered sub hsub] at hchanges
      cases hchanges
    · rename_i hfalls
      rw [Bool.not_eq_true] at hfalls
      refine ⟨.cases ((matchOrder arms).map (caseBranch cond)), lowered, rfl, writeMatch_ok hskip hvalid hlowered,
        fun hnone => absurd hnone hlabelled, fun hseen _ _ _ value next state => ?_⟩
      rw [HostSwitch.run, runBranches_unguarded value next (isGuard_writeMatch (heffects hseen) hlowered),
        if_neg hlabelled, executed_parts value hvalid]
      exact ⟨rfl, fun hdistinct => selected_cases value (next state).1 hlabels hdistinct hfalls⟩

/-- Evaluates the discriminant, and counts how often. -/
def countedAnswers (answers : Nat → Option Int) (count : Nat) : Option Int × Nat := (answers count, count + 1)

/-- `switch (next_op()) { case 1: a(); break; case 2: b(); break; }`. -/
def dispatch : Node :=
  .block [.caseLabel (.constant "int" "1") [.call (.ident "a") none, .breakJump],
    .caseLabel (.constant "int" "2") [.call (.ident "b") none, .breakJump]]

theorem run_dispatch : ∃ (host : HostSwitch) (code : List Code),
    (writeStmt {} .outermost false (.switch (.call (.ident "next_op") none) dispatch)).result = .ok code ∧
    Code.lines code = ["match next_op():", "    case 1:", "        a()", "    case 2:", "        b()"] ∧
    host.Lowers {} (Context.outermost.enterLoop.withSkip .onlyBreak) (.call (.ident "next_op") none) code ∧
    ∀ answers, host.run Node.intValue? (countedAnswers answers) 0 =
      (executed Node.intValue? (answers 0) (partsOf (switchItems dispatch)), 1) := by
  have hcode : (writeStmt {} .outermost false (.switch (.call (.ident "next_op") none) dispatch)).result = .ok [
      .suite "match next_op():" [.suite "case 1:" [.line "a()"], .suite "case 2:" [.line "b()"]]] := rfl
  obtain ⟨host, lowered, hlayout, hlowers, -, hrun⟩ := run_hostSwitch {} .outermost false _ dispatch hcode
    ⟨_, by rw [Node.visited_eq]; exact List.mem_cons_self .., rfl⟩
  obtain rfl : _ = lowered := hlayout
  refine ⟨host, _, hcode, by decide +kernel, hlowers, fun answers => ?_⟩
  obtain ⟨hstate, hstmts⟩ := hrun (Or.inl rfl) Node.intValue? (countedAnswers answers) 0
  exact Prod.ext (hstmts (by decide)) hstate

/-- `{ case A: g(); break; case B: h(); break; }`. -/
def namedCases : Node :=
  .block [.caseLabel (.ident "A") [.call (.ident "g") none, .breakJump],
    .caseLabel (.ident "B") [.call (.ident "h") none, .breakJump]]

/-- The call in `switch (f()) { }` is not in the output, and the one in a compound literal is made for each guard
too. -/
theorem run_unlabelledSwitch :
    (writeStmt {} .outermost false (.switch (.call (.ident "f") none) (.block []))).result = .ok [] ∧
    ∃ (host : HostSwitch) (code : List Code),
      (writeStmt {} .outermost false (.switch literalElement namedCases)).result = .ok code ∧
      Code.lines code = ["match [f()][0]:", "    case _ if [f()][0] == A:", "        g()",
        "    case _ if [f()][0] == B:", "        h()"] ∧
      host.Lowers {} (Context.outermost.enterLoop.withSkip .onlyBreak) literalElement code ∧
      .call (.ident "f") none ∈ literalElement.visited ∧
      (host.run (fun _ => 7) (callCounter.evaluate literalElement) 0).2 = 3 := by
  have hcode : (writeStmt {} .outermost false (.switch literalElement namedCases)).result = .ok [
      .suite "match [f()][0]:" [.suite "case _ if [f()][0] == A:" [.line "g()"],
        .suite "case _ if [f()][0] == B:" [.line "h()"]]] := rfl
  have hnext : callCounter.evaluate literalElement = fun calls => (calls, calls + 1) := by
    funext calls
    simp [literalElement, Operations.evaluate, Node.visitedParts, callCounter]
  have hguard : ∀ label, guardOf literalElement [label] = some (.binary "==" literalElement label) := fun _ => rfl
  refine ⟨rfl, .cases [⟨.guard (.binary "==" literalElement (.ident "A")), [.call (.ident "g") none]⟩,
    ⟨.guard (.binary "==" literalElement (.ident "B")), [.call (.ident "h") none]⟩], _, hcode, by decide +kernel, ?_,
    ?_, ?_⟩
  · refine ⟨"[f()][0]", _, rfl, rfl, .cons ?_ (.cons ?_ .nil)⟩
    · exact ⟨_, .guard (hguard (.ident "A")) rfl, _, rfl, rfl⟩
    · exact ⟨_, .guard (hguard (.ident "B")) rfl, _, rfl, rfl⟩
  · simp [literalElement, Node.visited_eq, Node.visitedParts]
  · rw [hnext]
    rfl

end StubGen.CUnit
