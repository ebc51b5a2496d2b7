import StubGen.CUnit.Statement
import StubGen.Proofs.Expression.Integer

/-!
# Branches

A chain of `if` statements selects one of its statements, or none.  Its output is a list of branches: clauses with a
test each, and what stands for all other cases.  An integer constant decides its branch when the output is written.

* `Truth` says which tests hold; `Truth.select` is the statement that a chain selects, `Truth.choose` the statement of
  the output that stands in the selected branch.
* `Branches.code` is the layout of branches.  The first clause is an `if`, the others are `elif`, and there is one
  `else` at the end or none.  Without clauses the statement stands by itself.
-/

namespace StubGen.CUnit

open Traced

/-- A meaning of tests on the states `σ`: whether a test holds, and the state after it.  An integer constant holds
unless it is zero. -/
structure Truth (σ : Type) where
  eval : Node → σ → Bool × σ
  eval_integer : ∀ {type value : String} {n : Nat}, containsPart "int".toList type.toList = true →
    IsInteger value.toList n → ∀ state, eval (.constant type value) state = (decide (n ≠ 0), state)

/-- A clause of the output: the statement of a test. -/
structure Clause where
  test : Node
  stmt : Node

/-- The branches of the output: clauses, and the statement for all other cases, if there is one. -/
structure Branches where
  clauses : List Clause
  otherwise : Option Node

namespace Truth

variable {σ : Type} (truth : Truth σ)

/-- The statement that a chain selects, with the state after its tests.  A statement after the last `else` is selected
as a whole. -/
def select : Node → σ → Option Node × σ
  | .ifElse cond whenTrue none, state =>
    let (holds, changed) := truth.eval cond state
    (if holds then some whenTrue else none, changed)
  | .ifElse cond whenTrue (some whenFalse), state =>
    let (holds, changed) := truth.eval cond state
    if holds then (some whenTrue, changed) else select whenFalse changed
  | stmt, state => (some stmt, state)
termination_by structural stmt => stmt

/-- The statement of the first clause whose test holds, and `otherwise` if there is none. -/
def choose (otherwise : Option Node) : List Clause → σ → Option Node × σ
  | [], state => (otherwise, state)
  | clause :: rest, state =>
    let (holds, changed) := truth.eval clause.test state
    if holds then (some clause.stmt, changed) else choose otherwise rest changed

end Truth

/-- The tests of a chain. -/
def Node.chainTests : Node → List Node
  | .ifElse cond _ none => [cond]
  | .ifElse cond _ (some whenFalse) => cond :: whenFalse.chainTests
  | _ => []
termination_by structural stmt => stmt

/-! ### Layout -/

section Layout

variable (options : UnitOptions) (context : Context)

/-- The suite of a clause. -/
def Clause.code (keyword : String) (clause : Clause) : Traced Code := do
  let test ← renderExpr options.reduceParentheses clause.test
  return .suite (keyword ++ test ++ ":") (Code.orPass (← writeStmt options context false clause.stmt))

/-- Clauses after a test, with the `else` at their end. -/
def alternatives (branches : Branches) : Traced (List Code) := do
  let clauses ← branches.clauses.mapM (Clause.code options context "elif ")
  match branches.otherwise with
  | none => return clauses
  | some stmt => return clauses ++ [.suite "else:" (Code.orPass (← writeStmt options context false stmt))]

/-- The layout of branches. -/
def Branches.code : Branches → Traced (List Code)
  | ⟨[], none⟩ => pure []
  | ⟨[], some stmt⟩ => writeStmt options context false stmt
  | ⟨first :: rest, otherwise⟩ => do
    return (← first.code options context "if ") :: (← alternatives options context ⟨rest, otherwise⟩)

end Layout

/-- Suites with the headers of a chain: one `if`, then as many `elif` as there are, then one `else` or none. -/
def IsLadder (code : List Code) : Prop :=
  ∃ test body clauses ending, code = .suite ("if " ++ test ++ ":") body :: (clauses ++ ending) ∧
    (∀ clause ∈ clauses, ∃ test body, clause = .suite ("elif " ++ test ++ ":") body) ∧
    (ending = [] ∨ ∃ body, ending = [.suite "else:" body])

variable {options : UnitOptions} {context : Context}

private theorem Clause.code_eq_ok {keyword : String} {clause : Clause} {code : Code}
    (h : (clause.code options context keyword).result = .ok code) :
    ∃ test body, code = .suite (keyword ++ test ++ ":") body := by
  obtain ⟨test, -, h⟩ := bind_eq_ok.mp h
  obtain ⟨body, -, h⟩ := bind_eq_ok.mp h
  cases h
  exact ⟨test, _, rfl⟩

/-- Branches with a test are laid out as a chain. -/
theorem Branches.isLadder {branches : Branches} {code : List Code} (hclauses : branches.clauses ≠ [])
    (h : (branches.code options context).result = .ok code) : IsLadder code := by
  obtain ⟨clauses, otherwise⟩ := branches
  obtain ⟨first, rest, rfl⟩ := List.exists_cons_of_ne_nil hclauses
  obtain ⟨head, hhead, h⟩ := bind_eq_ok.mp h
  obtain ⟨tail, htail, h⟩ := bind_eq_ok.mp h
  cases h
  obtain ⟨test, body, rfl⟩ := Clause.code_eq_ok hhead
  obtain ⟨suites, hsuites, htail⟩ := bind_eq_ok.mp htail
  have helif : ∀ suite ∈ suites, ∃ test body, suite = .suite ("elif " ++ test ++ ":") body := by
    intro suite hsuite
    obtain ⟨clause, -, hclause⟩ := exists_of_mapM_eq_ok hsuites suite hsuite
    exact Clause.code_eq_ok hclause
  cases otherwise with
  | none =>
    cases htail
    exact ⟨test, body, _, [], by rw [List.append_nil], helif, .inl rfl⟩
  | some stmt =>
    obtain ⟨last, -, htail⟩ := bind_eq_ok.mp htail
    cases htail
    exact ⟨test, body, suites, _, rfl, helif, .inr ⟨_, rfl⟩⟩

/-! ### Folding -/

/-- A branch point in front of other branches. -/
def Branches.add (cond whenTrue : Node) (rest : Branches) : Branches :=
  match cond.intValue? with
  | some value => if value ≠ 0 then ⟨[], some whenTrue⟩ else rest
  | none => ⟨⟨cond, whenTrue⟩ :: rest.clauses, rest.otherwise⟩

/-- The branches that are left of a chain. -/
def branchesOf : Node → Branches
  | .ifElse cond whenTrue none => .add cond whenTrue ⟨[], none⟩
  | .ifElse cond whenTrue (some whenFalse) => .add cond whenTrue (branchesOf whenFalse)
  | stmt => ⟨[], some stmt⟩
termination_by structural stmt => stmt

/-- The layout of branches, after a test of the same chain or by themselves. -/
private def codeAfter (options : UnitOptions) (context : Context) (after : Bool) (branches : Branches) :
    Traced (List Code) :=
  if after then alternatives options context branches else branches.code options context

private theorem codeAfter_otherwise (after : Bool) (stmt : Node) :
    codeAfter options context after ⟨[], some stmt⟩ = do
      return elseCode after (← writeStmt options context false stmt) := by
  cases after <;> simp [codeAfter, alternatives, Branches.code, elseCode]

private theorem codeAfter_clause (after : Bool) (clause : Clause) (rest : Branches) :
    codeAfter options context after ⟨clause :: rest.clauses, rest.otherwise⟩ = (do
      let first ← clause.code options context (if after then "elif " else "if ")
      return first :: (← alternatives options context rest)) := by
  obtain ⟨clauses, otherwise⟩ := rest
  cases after <;> cases otherwise <;> simp [codeAfter, alternatives, Branches.code]

/-- A statement other than a branch point is code by itself or in an `else`. -/
private theorem writeStmt_after (after : Bool) {stmt : Node}
    (h : ∀ cond whenTrue whenFalse, stmt ≠ .ifElse cond whenTrue whenFalse) :
    writeStmt options context after stmt = do
      return elseCode after (← writeStmt options context false stmt) := by
  have hwrapped : ∀ piece : Traced (List Code), (do return elseCode after (← piece)) =
      (do return elseCode after (← (do return elseCode false (← piece)))) := by
    intro piece
    simp [elseCode]
  cases stmt with
  | ifElse cond whenTrue whenFalse => exact absurd rfl (h cond whenTrue whenFalse)
  | switch cond body => cases body <;> exact hwrapped _
  | doLoop cond body =>
    rw [writeStmt, writeStmt]
    split <;> exact hwrapped _
  | forLoop init cond next body => cases init <;> cases next <;> exact hwrapped _
  | labelled label stmt => simp [writeStmt, elseCode]
  | _ => exact hwrapped _

private theorem writeIf_eq (after : Bool) (cond whenTrue : Node) (rest : Branches) :
    writeIf options.reduceParentheses after cond (writeStmt options context false whenTrue)
      (fun after => codeAfter options context after rest) =
        codeAfter options context after (.add cond whenTrue rest) := by
  rw [writeIf, Branches.add]
  cases cond.intValue? with
  | some value =>
    dsimp only
    split
    · rw [codeAfter_otherwise]
    · rfl
  | none =>
    dsimp only
    rw [codeAfter_clause]
    simp [Clause.code, codeAfter]

private theorem writeStmt_eq (after : Bool) (stmt : Node) :
    writeStmt options context after stmt = codeAfter options context after (branchesOf stmt) := by
  fun_induction branchesOf stmt generalizing after with
  | case1 cond whenTrue =>
    rw [← writeIf_eq, writeStmt]
    congr
    funext after
    cases after <;> rfl
  | case2 cond whenTrue whenFalse ih =>
    rw [← writeIf_eq, writeStmt]
    congr
    funext after
    exact ih after
  | case3 stmt hnone hsome =>
    rw [codeAfter_otherwise]
    refine writeStmt_after after ?_
    rintro cond whenTrue (_ | whenFalse) rfl
    · exact hnone _ _ rfl
    · exact hsome _ _ _ rfl

namespace Truth

variable {σ : Type} (truth : Truth σ)

/-- A branch point selects the same branch before and after folding. -/
private theorem choose_add {cond : Node} (hcond : cond.IsGenuine) (whenTrue : Node) (rest : Branches) (state : σ) :
    truth.choose (Branches.add cond whenTrue rest).otherwise (Branches.add cond whenTrue rest).clauses state =
      if (truth.eval cond state).1 then (some whenTrue, (truth.eval cond state).2)
      else truth.choose rest.otherwise rest.clauses (truth.eval cond state).2 := by
  rw [Branches.add]
  cases hvalue : cond.intValue? with
  | none => rfl
  | some value =>
    obtain ⟨type, text, n, rfl, htype, hinteger, rfl⟩ := exists_of_isGenuine hcond hvalue
    rw [truth.eval_integer htype hinteger state]
    by_cases hzero : n = 0
    · simp [hzero]
    · simp [hzero, choose]

private theorem choose_branchesOf (stmt : Node) (hgenuine : ∀ test ∈ stmt.chainTests, test.IsGenuine) (state : σ) :
    truth.choose (branchesOf stmt).otherwise (branchesOf stmt).clauses state = truth.select stmt state := by
  fun_induction branchesOf stmt generalizing state with
  | case1 cond whenTrue =>
    rw [truth.choose_add (hgenuine cond (List.mem_singleton_self cond)), select]
    cases truth.eval cond state with
    | mk holds changed => cases holds <;> rfl
  | case2 cond whenTrue whenFalse ih =>
    rw [Node.chainTests, List.forall_mem_cons] at hgenuine
    rw [truth.choose_add hgenuine.1, select, ih hgenuine.2]
  | case3 stmt hnone hsome => rw [choose, select.eq_3 _ _ _ hnone hsome]

end Truth

/-- Whichever tests hold, the branches of the output select the statement that the chain selects.  They are laid out as
one chain, unless no test is left. -/
theorem choose_eq_select (options : UnitOptions) (context : Context) (cond whenTrue : Node) (whenFalse : Option Node)
    {code : List Code} (h : (writeStmt options context false (.ifElse cond whenTrue whenFalse)).result = .ok code)
    (hgenuine : ∀ test ∈ (Node.ifElse cond whenTrue whenFalse).chainTests, test.IsGenuine) :
    ∃ branches : Branches, (branches.code options context).result = .ok code ∧
      (branches.clauses ≠ [] → IsLadder code) ∧
      ∀ {σ : Type} (truth : Truth σ) (state : σ),
        truth.choose branches.otherwise branches.clauses state =
          truth.select (.ifElse cond whenTrue whenFalse) state := by
  rw [writeStmt_eq] at h
  exact ⟨branchesOf (.ifElse cond whenTrue whenFalse), h, fun hclauses => Branches.isLadder hclauses h,
    fun truth => truth.choose_branchesOf _ hgenuine⟩

/-- Tests that are integer constants, or variables that hold or not. -/
def Truth.ofFlags (flags : String → Bool) : Truth Unit where
  eval test _ :=
    match test with
    | .ident name => (flags name, ())
    | test => (decide (test.intValue? ≠ some 0), ())
  eval_integer := by
    intro type value n htype hinteger _
    have hzero : int64? n ≠ some 0 ↔ n ≠ 0 := by
      rw [Ne, int64?_eq_some_iff]
      constructor
      · rintro hne rfl
        exact hne ⟨by decide, rfl⟩
      · rintro hne ⟨-, heq⟩
        exact hne (by exact_mod_cast heq)
    change (decide ((Node.constant type value).intValue? ≠ some 0), ()) = _
    rw [intValue?_of_isInteger htype hinteger]
    simp [hzero]

/-- `if (0) f(); else if (x) g(); else if (0x1UL) h(); else k();`. -/
def foldedChain : Node :=
  .ifElse (.constant "int" "0") (.call (.ident "f") none) (some
    (.ifElse (.ident "x") (.call (.ident "g") none) (some
      (.ifElse (.constant "unsigned long int" "0x1UL") (.call (.ident "h") none) (some (.call (.ident "k") none))))))

theorem choose_foldedChain : ∃ branches : Branches,
    (branches.code {} .outermost).result = .ok [.suite "if x:" [.line "g()"], .suite "else:" [.line "h()"]] ∧
    ∀ flags : String → Bool, ((Truth.ofFlags flags).choose branches.otherwise branches.clauses ()).1 =
      some (.call (.ident (if flags "x" then "g" else "h")) none) := by
  have hcode : (writeStmt {} .outermost false foldedChain).result =
      .ok [.suite "if x:" [.line "g()"], .suite "else:" [.line "h()"]] := rfl
  have hzero : IsInteger "0".toList 0 := ⟨['0'], [], rfl, .octal rfl, .inl rfl⟩
  have hone : IsInteger "0x1UL".toList 1 := ⟨['0', 'x', '1'], ['U', 'L'], rfl,
    .hexadecimal (by decide) (by decide) rfl, .inr (by decide)⟩
  have hgenuine : ∀ test ∈ foldedChain.chainTests, test.IsGenuine := by
    intro test htest
    simp only [foldedChain, Node.chainTests, List.mem_cons, List.not_mem_nil, or_false] at htest
    rcases htest with rfl | rfl | rfl <;> intro type value heq _ <;> cases heq
    · exact ⟨0, hzero⟩
    · exact ⟨1, hone⟩
  obtain ⟨branches, hlayout, -, hchoose⟩ := choose_eq_select {} .outermost _ _ _ hcode hgenuine
  refine ⟨branches, hlayout, fun flags => ?_⟩
  rw [hchoose]
  have hselect : (Truth.ofFlags flags).select foldedChain () =
      if flags "x" then (some (.call (.ident "g") none), ()) else (some (.call (.ident "h") none), ()) := rfl
  rw [foldedChain] at hselect
  rw [hselect]
  cases flags "x" <;> rfl

end StubGen.CUnit
