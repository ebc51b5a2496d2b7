import Mathlib.Data.List.Forall2
import StubGen.CUnit.Statement

/-!
# What a switch executes

The body of a switch is a list of parts: labels, and statements with nested blocks opened.  The branches of its output
are the cases of a `match` or the tests of a chain, each with statements.

* `executed` is the list of statements that the switch executes for a value of its discriminant.
* `selected` is the list of statements that the branches select for it.
* `Lowers` says that code is the layout of branches: a `match`, or a chain of tests.

A label inside a statement other than a block belongs to that statement.
-/

namespace StubGen.CUnit

/-- A part of the body of a switch. -/
inductive Part where
  | label (label : CaseLabel)
  | stmt (stmt : Node)

mutual

/-- A statement, or the statements of a block, with nested blocks opened. -/
def opened : Node → List Node
  | .block items => flatten items
  | stmt => [stmt]
termination_by structural stmt => stmt

/-- Statements, with nested blocks opened. -/
def flatten : List Node → List Node
  | [] => []
  | stmt :: rest => opened stmt ++ flatten rest
termination_by structural stmts => stmts

end

/-- The items of the body of a switch. -/
def switchItems : Node → List Node
  | .block items => items
  | item => [item]

theorem writeStmt_switch {options : UnitOptions} {context : Context} (after : Bool) (cond body : Node) :
    writeStmt options context after (.switch cond body) = (do
      return elseCode after (← writeSwitch options.reduceParentheses cond
        (writeItems options (context.enterLoop.withSkip .onlyBreak) (switchItems body)))) := by
  cases body <;> rfl

/-- The parts of the items of a switch. -/
def partsOf : List Node → List Part
  | [] => []
  | .caseLabel label stmts :: rest => .label (.value label) :: (flatten stmts).map .stmt ++ partsOf rest
  | .defaultLabel stmts :: rest => .label .default :: (flatten stmts).map .stmt ++ partsOf rest
  | stmt :: rest => .stmt stmt :: partsOf rest

def labelsOf (parts : List Part) : List CaseLabel :=
  parts.filterMap fun
    | .label label => some label
    | .stmt _ => none

def Node.isBreak : Node → Bool
  | .breakJump => true
  | _ => false

/-- Whether a statement before these parts is the last one of its arm. -/
def endsArm : List Part → Bool
  | .stmt _ :: _ => false
  | _ => true

/-- The statements that run from a place in a switch, up to the first jump that ends an arm.  A `break` is not one of
them, another jump is. -/
def stmtsFrom : List Part → List Node
  | [] => []
  | .label _ :: rest => stmtsFrom rest
  | .stmt stmt :: rest =>
    if isTerminal stmt && endsArm rest then (if stmt.isBreak then [] else [stmt]) else stmt :: stmtsFrom rest

/-- The parts after the first label with a property. -/
def afterLabel (p : CaseLabel → Bool) : List Part → Option (List Part)
  | [] => none
  | .label label :: rest => if p label then some rest else afterLabel p rest
  | .stmt _ :: rest => afterLabel p rest

section Values

variable {V : Type} [DecidableEq V] (value : Node → V)

/-- The value of a label; a default label has none. -/
def CaseLabel.key : CaseLabel → Option V
  | .value label => some (value label)
  | .default => none

/-- The statements that a switch executes: those from the label with the value of the discriminant, else from the
default label. -/
def executed (v : V) (parts : List Part) : List Node :=
  (((afterLabel (fun label => label.key value = some v) parts).or (afterLabel CaseLabel.isDefault parts)).map
    stmtsFrom).getD []

/-- The test of a branch. -/
inductive Test where
  | always
  | among (labels : List Node)
  | guard (test : Node)

/-- Whether a disjunction of comparisons of the discriminant with labels holds. -/
def comparisonHolds (v : V) : Node → Bool
  | .binary op left right =>
    if op = "||" then comparisonHolds v left || comparisonHolds v right else op = "==" && v = value right
  | _ => false
termination_by structural test => test

def Test.holds (v : V) : Test → Bool
  | .always => true
  | .among labels => labels.any fun label => value label = v
  | .guard test => comparisonHolds value v test

/-- A branch of the output. -/
structure Branch where
  test : Test
  stmts : List Node

/-- The statements of the first branch whose test holds. -/
def selected (v : V) (branches : List Branch) : List Node :=
  ((branches.find? fun branch => branch.test.holds value v).map Branch.stmts).getD []

end Values

/-! ### Layout -/

/-- The header of a case of a `match`. -/
inductive IsHeader (reduce : Bool) (cond : Node) : Test → String → Prop
  | always : IsHeader reduce cond .always "case _:"
  | among {labels : List Node} {texts : List String} :
      (∀ label ∈ labels, isPattern label) → (renderExprs reduce labels).result = .ok texts →
        IsHeader reduce cond (.among labels) ("case " ++ " | ".intercalate texts ++ ":")
  | guard {labels : List Node} {test : Node} {text : String} :
      guardOf cond labels = some test → (renderExpr reduce test).result = .ok text →
        IsHeader reduce cond (.guard test) ("case _ if " ++ text ++ ":")

/-- A suite of the code of statements. -/
def IsSuite (options : UnitOptions) (context : Context) (header : String) (stmts : List Node) (code : Code) : Prop :=
  ∃ lines, (writeStmts options context stmts).result = .ok lines ∧ code = .suite header (Code.orPass lines)

/-- A chain of tests on the discriminant.  `first` says that no test stands before it. -/
inductive IsChain (options : UnitOptions) (context : Context) (cond : Node) : Bool → List Branch → List Code → Prop
  | nil {first : Bool} : IsChain options context cond first [] []
  | test {first : Bool} {label : Node} {text : String} {stmts : List Node} {code : Code} {branches : List Branch}
      {codes : List Code} :
      (renderExpr options.reduceParentheses (.binary "==" cond label)).result = .ok text →
        IsSuite options context ((if first then "if " else "elif ") ++ text ++ ":") stmts code →
        IsChain options context cond false branches codes →
        IsChain options context cond first (⟨.guard (.binary "==" cond label), stmts⟩ :: branches) (code :: codes)
  | otherwise {stmts : List Node} {code : Code} :
      IsSuite options context "else:" stmts code → IsChain options context cond false [⟨.always, stmts⟩] [code]

/-- Code that is the layout of branches on a discriminant. -/
inductive Lowers (options : UnitOptions) (context : Context) (cond : Node) : List Branch → List Code → Prop
  | cases {subject : String} {branches : List Branch} {suites : List Code} :
      (renderExpr options.reduceParentheses cond).result = .ok subject →
        List.Forall₂ (fun branch code => ∃ header, IsHeader options.reduceParentheses cond branch.test header ∧
          IsSuite options context header branch.stmts code) branches suites →
        Lowers options context cond branches [.suite ("match " ++ subject ++ ":") suites]
  | chain {branches : List Branch} {codes : List Code} :
      IsChain options context cond true branches codes → Lowers options context cond branches codes

end StubGen.CUnit
