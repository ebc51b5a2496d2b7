import StubGen.CUnit.Node

/-!
# Where a node stands

* A `Context` says at which level of the unit code is written, and which jumps are left out of it.
* `containsJump` finds the jumps of a statement that are bound to the loop or switch around it.
-/

namespace StubGen.CUnit

/-- A set of jumps: `break`, `continue`, both or none. -/
structure Jumps where
  breaks : Bool
  continues : Bool
  deriving DecidableEq, Repr, Inhabited

namespace Jumps

def none : Jumps := ⟨false, false⟩

def onlyBreak : Jumps := ⟨true, false⟩

def onlyContinue : Jumps := ⟨false, true⟩

def both : Jumps := ⟨true, true⟩

def union (a b : Jumps) : Jumps := ⟨a.breaks || b.breaks, a.continues || b.continues⟩

/-- The jumps of a set without `break`. -/
def withoutBreak (jumps : Jumps) : Jumps := ⟨false, jumps.continues⟩

/-- The jump that a node of this kind is. -/
def ofKind (kind : String) : Jumps :=
  if kind = "Break" then onlyBreak else if kind = "Continue" then onlyContinue else none

def isEmpty (jumps : Jumps) : Bool := !jumps.breaks && !jumps.continues

/-- Whether the second set is part of the first. -/
def contains (jumps part : Jumps) : Bool :=
  (!part.breaks || jumps.breaks) && (!part.continues || jumps.continues)

end Jumps

/-- The part of the unit to which code belongs. -/
inductive Role where
  | topLevel
  /-- The result type of a function. -/
  | signature
  | params
  | body
  deriving DecidableEq, Repr, Inhabited

/-- Whether definitions in this part stand at the left margin. -/
def Role.isModuleScope (role : Role) : Bool := role ≠ .body

/-- The part to which code belongs, and the jumps that are left out of it. -/
structure Context where
  role : Role
  skip : Jumps
  deriving DecidableEq, Repr

namespace Context

/-- The context of a unit. -/
def outermost : Context := ⟨.topLevel, .none⟩

instance : Inhabited Context := ⟨outermost⟩

def withRole (context : Context) (role : Role) : Context := { context with role := role }

def withSkip (context : Context) (jumps : Jumps) : Context := { context with skip := context.skip.union jumps }

/-- Inside a loop or a switch jumps are bound to it, so none is left out. -/
def enterLoop (context : Context) : Context := { context with skip := .none }

/-- Whether nodes of this kind are left out. -/
def skips (context : Context) (kind : String) : Bool :=
  !(Jumps.ofKind kind).isEmpty && context.skip.contains (Jumps.ofKind kind)

@[simp] theorem skips_break (context : Context) : context.skips "Break" = context.skip.breaks := by
  simp [skips, Jumps.ofKind, Jumps.isEmpty, Jumps.contains, Jumps.onlyBreak]

@[simp] theorem skips_continue (context : Context) : context.skips "Continue" = context.skip.continues := by
  simp [skips, Jumps.ofKind, Jumps.isEmpty, Jumps.contains, Jumps.onlyContinue]

/-- Only jumps are left out. -/
theorem skips_of_ne (context : Context) {kind : String} (hbreak : kind ≠ "Break") (hcontinue : kind ≠ "Continue") :
    context.skips kind = false := by
  simp [skips, Jumps.ofKind, hbreak, hcontinue, Jumps.isEmpty, Jumps.none]

@[simp] theorem role_enterLoop (context : Context) : context.enterLoop.role = context.role := rfl

@[simp] theorem skip_enterLoop (context : Context) : context.enterLoop.skip = .none := rfl

end Context

mutual

/-- Whether the statement has one of the jumps, bound to the loop or switch directly around the statement. -/
def containsJump (jumps : Jumps) : Node → Bool
  | .breakJump => jumps.breaks
  | .continueJump => jumps.continues
  | .switch _ body => containsJump jumps.withoutBreak body
  | .block items => anyContainsJump jumps items
  | .ifElse _ whenTrue none => containsJump jumps whenTrue
  | .ifElse _ whenTrue (some whenFalse) => containsJump jumps whenTrue || containsJump jumps whenFalse
  | .labelled _ stmt => containsJump jumps stmt
  | .caseLabel _ stmts => anyContainsJump jumps stmts
  | .defaultLabel stmts => anyContainsJump jumps stmts
  | _ => false
termination_by structural stmt => stmt

/-- Whether one of the statements has one of the jumps. -/
def anyContainsJump (jumps : Jumps) : List Node → Bool
  | [] => false
  | stmt :: rest => containsJump jumps stmt || anyContainsJump jumps rest
termination_by structural stmts => stmts

end

theorem anyContainsJump_eq_any (jumps : Jumps) (stmts : List Node) :
    anyContainsJump jumps stmts = stmts.any (containsJump jumps) := by
  induction stmts with
  | nil => rfl
  | cons stmt rest ih => rw [anyContainsJump, ih, List.any_cons]

private theorem Jumps.withoutBreak_union (a b : Jumps) :
    (a.union b).withoutBreak = a.withoutBreak.union b.withoutBreak := rfl

theorem containsJump_union (a b : Jumps) (stmt : Node) :
    containsJump (a.union b) stmt = (containsJump a stmt || containsJump b stmt) := by
  suffices h : ∀ jumps, ∀ a b : Jumps, jumps = a.union b →
      containsJump jumps stmt = (containsJump a stmt || containsJump b stmt) from h _ a b rfl
  intro jumps
  apply containsJump.induct
    (fun jumps stmt => ∀ a b : Jumps, jumps = a.union b →
      containsJump jumps stmt = (containsJump a stmt || containsJump b stmt))
    (fun jumps stmts => ∀ a b : Jumps, jumps = a.union b →
      anyContainsJump jumps stmts = (anyContainsJump a stmts || anyContainsJump b stmts))
  all_goals intros
  all_goals subst_vars
  case case3 ih =>
    rw [containsJump, containsJump, containsJump]
    exact ih _ _ (Jumps.withoutBreak_union ..)
  case case10 =>
    rw [containsJump, containsJump, containsJump]
    · rfl
    all_goals assumption
  case case1 => rfl
  case case2 => rfl
  case case4 ih => exact ih _ _ rfl
  case case5 ih => exact ih _ _ rfl
  case case6 iht ihf =>
    rw [containsJump, containsJump, containsJump, iht _ _ rfl, ihf _ _ rfl]
    ac_rfl
  case case7 ih => exact ih _ _ rfl
  case case8 ih => exact ih _ _ rfl
  case case9 ih => exact ih _ _ rfl
  case case11 => rfl
  case case12 ih ihrest =>
    rw [anyContainsJump, anyContainsJump, anyContainsJump, ih _ _ rfl, ihrest _ _ rfl]
    ac_rfl

theorem containsJump_both {stmt : Node} (h : containsJump .both stmt = false) :
    containsJump .onlyBreak stmt = false ∧ containsJump .onlyContinue stmt = false := by
  have hunion := containsJump_union .onlyBreak .onlyContinue stmt
  rw [show Jumps.onlyBreak.union .onlyContinue = .both from rfl, h] at hunion
  simpa using hunion.symm

/-- No statement has a jump of the empty set. -/
theorem containsJump_none (stmt : Node) : containsJump .none stmt = false := by
  suffices h : ∀ jumps, jumps = Jumps.none → containsJump jumps stmt = false from h _ rfl
  intro jumps
  apply containsJump.induct (fun jumps stmt => jumps = Jumps.none → containsJump jumps stmt = false)
    (fun jumps stmts => jumps = Jumps.none → anyContainsJump jumps stmts = false)
  all_goals intros
  all_goals subst_vars
  case case3 ih => exact ih rfl
  case case6 iht ihf => rw [containsJump, iht rfl, ihf rfl, Bool.or_false]
  case case10 => rw [containsJump] <;> assumption
  case case12 ih ihrest => rw [anyContainsJump, ih rfl, ihrest rfl, Bool.or_false]
  case case1 => rfl
  case case2 => rfl
  case case4 ih => exact ih rfl
  case case5 ih => exact ih rfl
  case case7 ih => exact ih rfl
  case case8 ih => exact ih rfl
  case case9 ih => exact ih rfl
  case case11 => rfl

end StubGen.CUnit
