import StubGen.CUnit.Context
import StubGen.CUnit.Expression
import StubGen.Layout.Code

/-!
# Switches

A switch is a list of arms: labels with the statements that follow them.  If no arm but the last one runs into the
next, a switch becomes a `match`; else it becomes a chain of tests, in which each label has all the statements that
run from it.

* `armsOf` groups the items of a switch and checks each arm.
* `regionEntries` pairs each label with the statements that run from it.
* `writeSwitch` gives the code of a switch from the code of the statements.

Statements come with what writes them, of any type `α`.
-/

namespace StubGen.CUnit

variable {α : Type}

/-- Code that may fail, and the symbols it uses. -/
abbrev TracedCode := Traced (List Code)

/-- A statement together with its code. -/
structure Written (α : Type) where
  stmt : Node
  code : α

/-- A label of a switch. -/
inductive CaseLabel where
  | value (label : Node)
  | default

/-- An item of a switch: a label with statements, or some other node. -/
inductive SwitchItem (α : Type) where
  | labelled (label : CaseLabel) (stmts : List (Written α))
  | other (kind : String)

/-- Labels that stand together, and the statements that follow them.  The arm is `terminal` if control never gets
from its last statement to the next arm. -/
structure Arm (α : Type) where
  labels : List CaseLabel
  body : List (Written α)
  terminal : Bool

namespace CaseLabel

def isDefault : CaseLabel → Bool
  | .default => true
  | .value _ => false

/-- The expression of a label. -/
def value? : CaseLabel → Option Node
  | .value label => some label
  | .default => none

/-- The name of a label in messages: its text, or its kind if it has no text. -/
def text (reduce : Bool) : CaseLabel → Traced String
  | .value label => (renderExpr reduce label).orElseValue label.kind
  | .default => pure "default"

end CaseLabel

namespace Arm

def hasDefault (arm : Arm α) : Bool := arm.labels.any CaseLabel.isDefault

end Arm

/-- Whether control does not get past the statement. -/
def isTerminal : Node → Bool
  | .breakJump | .returnJump _ | .continueJump | .gotoJump _ => true
  | _ => false

/-- A `break` may only be the last statement of an arm, and no statement may have one inside. -/
def checkBreaks (label : String) : List (Written α) → Except GenerateError Unit
  | [] => .ok ()
  | written :: rest =>
    match written.stmt with
    | .breakJump => if rest.isEmpty then .ok () else .error (.codeAfterBreak label)
    | stmt => if containsJump .onlyBreak stmt then .error (.conditionalBreak label) else checkBreaks label rest

/-- The arms of the items, after the labels that stand directly before them. -/
def armsFrom (reduce : Bool) (labels : List CaseLabel) : List (SwitchItem α) → Traced (List (Arm α))
  | [] => pure (if labels.isEmpty then [] else [⟨labels, [], false⟩])
  | .other kind :: _ => .fail (.unsupportedSwitchItem kind)
  | .labelled label [] :: rest => armsFrom reduce (labels ++ [label]) rest
  | .labelled label (first :: others) :: rest => do
    let body := first :: others
    ⟨[], checkBreaks (← label.text reduce) body⟩
    let arms ← armsFrom reduce [] rest
    return ⟨labels ++ [label], body, (body.getLast?.map (·.stmt)).any isTerminal⟩ :: arms

/-- The arms of a switch. -/
def armsOf (reduce : Bool) (items : List (SwitchItem α)) : Traced (List (Arm α)) := armsFrom reduce [] items

/-- The code of statements, one after the other. -/
def sequence : List (Written TracedCode) → Traced (List Code)
  | [] => pure []
  | written :: rest => do return (← written.code) ++ (← sequence rest)

/-- A name, or a member of one. -/
def isDottedName : Node → Bool
  | .member base _ _ => isDottedName base
  | .ident _ => true
  | _ => false
termination_by structural node => node

/-- Whether a label can be a pattern: constants, negated ones, and members of names. -/
def isPattern : Node → Bool
  | .constant .. => true
  | .unary op (.constant ..) => op = "-"
  | .member base _ _ => isDottedName base
  | _ => false

/-- The texts of the labels as patterns, if all of them can be one. -/
def patterns? (reduce : Bool) : List Node → Traced (Option (List String))
  | [] => pure (some [])
  | label :: rest =>
    if isPattern label then do
      let text ← renderExpr reduce label
      return (← patterns? reduce rest).map (text :: ·)
    else pure none

/-- The test whether the discriminant equals one of the labels. -/
def guardOf (cond : Node) : List Node → Option Node
  | [] => none
  | label :: rest =>
    some (rest.foldl (fun test label => .binary "||" test (.binary "==" cond label)) (.binary "==" cond label))

/-- The header of an arm of a `match`. -/
def caseHeader (reduce : Bool) (cond : Node) (arm : Arm α) : Traced String := do
  if arm.hasDefault then return "case _:"
  let labels := arm.labels.filterMap CaseLabel.value?
  match ← patterns? reduce labels with
  | some patterns => return "case " ++ " | ".intercalate patterns ++ ":"
  | none =>
    if cond.hasEffects then .fail (.unsupportedDiscriminant "discriminant with side effects")
    else
      match guardOf cond labels with
      | some guard => return "case _ if " ++ (← renderExpr reduce guard) ++ ":"
      | none => .fail (.unexpected cond.kind "empty switch arm")

/-- The arms in the order of a `match`: those with a default label come last. -/
def matchOrder (arms : List (Arm α)) : List (Arm α) :=
  arms.filter (!·.hasDefault) ++ arms.filter (·.hasDefault)

theorem mem_of_mem_matchOrder {arms : List (Arm α)} {arm : Arm α} (h : arm ∈ matchOrder arms) : arm ∈ arms := by
  simp only [matchOrder, List.mem_append, List.mem_filter] at h
  exact h.elim And.left And.left

theorem length_matchOrder (arms : List (Arm α)) : (matchOrder arms).length = arms.length := by
  have hcount := List.length_eq_countP_add_countP Arm.hasDefault (l := arms)
  simp only [List.countP_eq_length_filter, Bool.not_eq_true, Bool.decide_eq_false] at hcount
  rw [matchOrder, List.length_append, Nat.add_comm, hcount]

/-- A `match` over the arms. -/
def writeMatch (reduce : Bool) (cond : Node) (arms : List (Arm TracedCode)) : Traced (List Code) := do
  let subject ← renderExpr reduce cond
  let suites ← (matchOrder arms).mapM fun arm => do
    let header ← caseHeader reduce cond arm
    return Code.suite header (Code.orPass (← sequence arm.body))
  return [.suite ("match " ++ subject ++ ":") suites]

/-- The runs of arms that end with a terminal arm, or with the last arm. -/
def regions : List (Arm α) → List (List (Arm α))
  | [] => []
  | arm :: rest =>
    match arm.terminal, regions rest with
    | false, region :: others => (arm :: region) :: others
    | _, others => [arm] :: others

/-- The labels of a region, each with the statements that run from it. -/
def regionEntries : List (Arm α) → List (CaseLabel × List (Written α))
  | [] => []
  | arm :: rest =>
    let stmts := arm.body ++ rest.flatMap Arm.body
    arm.labels.map (·, stmts) ++ regionEntries rest

/-- A chain of tests.  A default label that is the only one needs no test. -/
def writeChain (reduce : Bool) (cond : Node) (first : Bool) :
    List (CaseLabel × List (Written TracedCode)) → Traced (List Code)
  | [] => pure []
  | (.value label, stmts) :: rest => do
    let test ← renderExpr reduce (.binary "==" cond label)
    let body ← sequence stmts
    let others ← writeChain reduce cond false rest
    return .suite ((if first then "if " else "elif ") ++ test ++ ":") (Code.orPass body) :: others
  | (.default, stmts) :: rest => do
    let body ← sequence stmts
    let others ← writeChain reduce cond first rest
    return (if first then body else [.suite "else:" (Code.orPass body)]) ++ others

/-- Whether a default label comes before another label. -/
def defaultBeforeLast (labels : List CaseLabel) : Bool := labels.dropLast.any CaseLabel.isDefault

/-- A switch with arms that run into the next one.  The discriminant is evaluated many times, so it has to be a
variable or a constant. -/
def writeFallthrough (reduce : Bool) (cond : Node) (arms : List (Arm TracedCode)) : Traced (List Code) :=
  match cond with
  | .ident _ | .constant .. =>
    if defaultBeforeLast (arms.flatMap Arm.labels) then .fail .defaultNotLast
    else writeChain reduce cond true ((regions arms).flatMap regionEntries)
  | other => .fail (.unsupportedDiscriminant other.kind)

/-- Whether an arm other than the last one runs into the next. -/
def fallsThrough (arms : List (Arm α)) : Bool := arms.dropLast.any (!·.terminal)

/-- The code of a switch over its items; nothing if it has no labels. -/
def writeSwitch (reduce : Bool) (cond : Node) (items : List (SwitchItem TracedCode)) : Traced (List Code) := do
  let arms ← armsOf reduce items
  if arms.isEmpty then return []
  else if fallsThrough arms then writeFallthrough reduce cond arms
  else writeMatch reduce cond arms

end StubGen.CUnit
