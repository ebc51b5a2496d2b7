import StubGen.CUnit.Declaration
import StubGen.CUnit.Effect
import StubGen.CUnit.Switch

/-!
# Statements

`writeStmt` gives the code of a statement.  Loops, switches and steps that the output lacks are brought into a form
that it has; where there is none, the statement fails.

* `writeIf` writes one branch point of an `if` chain and leaves out the branches that a constant rules out.
* `writeFor`, `writeWhile` and `writeDo` write loops around the code of their bodies.
-/

namespace StubGen.CUnit

/-- A step as a statement. -/
def writeStep (reduce : Bool) (step : Step) : Traced Code := do
  let target ← renderExpr reduce step.operand
  return .line (target ++ (if step.op.endsWith "+" then " += 1" else " -= 1"))

/-- Code in an `else` branch if a test of the same chain stands before it, and code by itself if not. -/
def elseCode (after : Bool) (code : List Code) : List Code :=
  if after then [.suite "else:" (Code.orPass code)] else code

/-- A branch point.  `after` says that a test of the same chain stands before it, and the code of the alternative
depends on that too.  An integer constant decides the branch, and the other one leaves no trace. -/
def writeIf (reduce after : Bool) (cond : Node) (whenTrue : Traced (List Code))
    (whenFalse : Bool → Traced (List Code)) : Traced (List Code) :=
  match cond.intValue? with
  | some value => if value ≠ 0 then do return elseCode after (← whenTrue) else whenFalse after
  | none => do
    let test ← renderExpr reduce cond
    let body ← whenTrue
    let rest ← whenFalse true
    return .suite ((if after then "elif " else "if ") ++ test ++ ":") (Code.orPass body) :: rest

/-- A `while` loop around the code of its body. -/
def writeWhile (reduce : Bool) (cond body : Node) (bodyCode : Traced (List Code)) : Traced (List Code) := do
  let test ← (⟨[], splitTest cond⟩ : Traced SplitTest)
  if !test.after.isEmpty && containsJump .onlyContinue body then .fail .continueSkipsStep
  -- a postfix step happens before the body, so a `break` must not leave it out
  if test.after.any Step.isPostfix && containsJump .onlyBreak body then .fail .breakSkipsEffect
  let before ← test.before.mapM (writeStep reduce)
  let testText ← renderExpr reduce test.cond
  let body ← bodyCode
  let after ← test.after.mapM (writeStep reduce)
  return before ++ [.suite ("while " ++ testText ++ ":") (Code.orPass (body ++ after))]

/-- The line at the end of a body that leaves the loop when its test fails. -/
def leaveUnless (test : String) : Code := .line ("if not (" ++ test ++ "): break")

/-- A loop with a step: the test stands before the loop and at the end of its body. -/
def writeSteppedLoop (reduce : Bool) (cond : Option Node) (bodyCode nextCode : Traced (List Code)) :
    Traced (List Code) := do
  match cond with
  | some cond => do
    let test ← renderExpr reduce cond
    let body ← bodyCode
    let next ← nextCode
    return [.suite ("if " ++ test ++ ":") [.suite "while True:" (body ++ next ++ [leaveUnless test])]]
  | none => do
    let body ← bodyCode
    let next ← nextCode
    return [.suite "while True:" (Code.orPass (body ++ next))]

/-- A `for` loop around the code of its parts.  A loop that counts runs over a range, and a loop without a step is
a `while` loop. -/
def writeFor (reduce : Bool) (init cond next : Option Node) (body : Node)
    (initCode bodyCode nextCode : Traced (List Code)) : Traced (List Code) := do
  let counting := do counting? (← init) (← cond) (← next)
  match counting with
  | some loop => do
    let header ← countingHeader reduce loop
    return [.suite header (Code.orPass (← bodyCode))]
  | none => do
    if next.isSome && containsJump .onlyContinue body then .fail .continueSkipsStep
    let initLines ← initCode
    let loop ←
      match cond, next with
      | some cond, none => writeWhile reduce cond body bodyCode
      | _, _ => writeSteppedLoop reduce cond bodyCode nextCode
    return initLines ++ loop

/-- A loop that tests at its end. -/
def writeDo (reduce : Bool) (cond body : Node) (bodyCode : Traced (List Code)) : Traced (List Code) := do
  -- a `continue` would leave the test out
  if containsJump .onlyContinue body then .fail .continueSkipsStep
  let test ← renderExpr reduce cond
  return [.suite "while True:" ((← bodyCode) ++ [leaveUnless test])]

/-- An assertion. -/
def writeAssert (reduce : Bool) (cond : Node) (note : Option Node) : Traced (List Code) := do
  let test ← renderExpr reduce cond
  match note with
  | some note => return [.line ("assert " ++ test ++ ", " ++ (← renderExpr reduce note))]
  | none => return [.line ("assert " ++ test)]

/-- A statement that is no block, branch, loop or switch. -/
def writeSimple (options : UnitOptions) (context : Context) (stmt : Node) : Traced (List Code) :=
  let reduce := options.reduceParentheses
  match stmt with
  | .decl .. => writeDecl options context stmt
  | .declList decls => writeDecls options context decls
  | .typedef name type => writeTypedef options context name type
  | .assign op target value => do return [.line (← renderAssignment reduce op target value)]
  | .unary op operand =>
    if Node.isStepOp op then do return [← writeStep reduce ⟨op, operand⟩]
    else do return [.line (← renderExpr reduce stmt)]
  | .returnJump none => pure [.line "return"]
  | .returnJump (some value) => do return [.line ("return " ++ (← renderExpr reduce value))]
  | .breakJump => pure (if context.skip.breaks then [] else [.line "break"])
  | .continueJump => pure (if context.skip.continues then [] else [.line "continue"])
  | .gotoJump label =>
    match options.gotoCall with
    | some call => pure [.line (call ++ "('" ++ label ++ "')")]
    | none => .fail (.goto label)
  | .empty => pure []
  | .pragma text => pure [.line ("#pragma " ++ text.getD "")]
  | .staticAssert cond note => writeAssert reduce cond note
  | .caseLabel .. | .defaultLabel _ => unexpected stmt "statement outside switch"
  | .call .. | .ident _ | .constant .. | .binary .. | .ternary .. | .subscript .. | .member .. | .cast .. => do
    return [.line (← renderExpr reduce stmt)]
  | _ => unexpected stmt "statement"

mutual

/-- The code of a statement.  `after` says that the statement is the alternative of a test that has been written. -/
def writeStmt (options : UnitOptions) (context : Context) (after : Bool) : Node → Traced (List Code)
  | .ifElse cond whenTrue none =>
    writeIf options.reduceParentheses after cond (writeStmt options context false whenTrue) fun _ => pure []
  | .ifElse cond whenTrue (some whenFalse) =>
    writeIf options.reduceParentheses after cond (writeStmt options context false whenTrue) fun after =>
      writeStmt options context after whenFalse
  | .block items => do return elseCode after (← writeStmts options context items)
  | .exprList exprs => do return elseCode after (← writeStmts options context exprs)
  | .labelled label stmt => do
    return elseCode after (.line ("# label: " ++ label) :: (← writeStmt options context false stmt))
  | .forLoop init cond next body => do
    let initCode :=
      match init with
      | some init => writeStmt options context false init
      | none => pure []
    let nextCode :=
      match next with
      | some next => writeStmt options context false next
      | none => pure []
    return elseCode after
      (← writeFor options.reduceParentheses init cond next body initCode
        (writeStmt options context.enterLoop false body) nextCode)
  | .whileLoop cond body => do
    return elseCode after
      (← writeWhile options.reduceParentheses cond body (writeStmt options context.enterLoop false body))
  | .doLoop cond body => do
    -- a body that runs exactly once needs no loop
    if cond.intValue? = some 0 && !containsJump .both body then
      return elseCode after (← writeStmt options context false body)
    else
      return elseCode after
        (← writeDo options.reduceParentheses cond body (writeStmt options context.enterLoop false body))
  | .switch cond (.block items) => do
    let inner := context.enterLoop.withSkip .onlyBreak
    return elseCode after (← writeSwitch options.reduceParentheses cond (writeItems options inner items))
  | .switch cond (.caseLabel label stmts) => do
    let inner := context.enterLoop.withSkip .onlyBreak
    return elseCode after
      (← writeSwitch options.reduceParentheses cond [.labelled (.value label) (writeFlat options inner stmts)])
  | .switch cond (.defaultLabel stmts) => do
    let inner := context.enterLoop.withSkip .onlyBreak
    return elseCode after
      (← writeSwitch options.reduceParentheses cond [.labelled .default (writeFlat options inner stmts)])
  | .switch cond body => do
    return elseCode after (← writeSwitch options.reduceParentheses cond [.other body.kind])
  | stmt => do return elseCode after (← writeSimple options context stmt)
termination_by structural stmt => stmt

/-- The code of statements, one after the other. -/
def writeStmts (options : UnitOptions) (context : Context) : List Node → Traced (List Code)
  | [] => pure []
  | stmt :: rest => do return (← writeStmt options context false stmt) ++ (← writeStmts options context rest)
termination_by structural stmts => stmts

/-- The statements of an arm, each with its code; those of nested blocks count as statements of the arm. -/
def writeFlat (options : UnitOptions) (context : Context) : List Node → List (Written TracedCode)
  | [] => []
  | .block items :: rest => writeFlat options context items ++ writeFlat options context rest
  | stmt :: rest => ⟨stmt, writeStmt options context false stmt⟩ :: writeFlat options context rest
termination_by structural stmts => stmts

/-- The items of a switch. -/
def writeItems (options : UnitOptions) (context : Context) : List Node → List (SwitchItem TracedCode)
  | [] => []
  | .caseLabel label stmts :: rest =>
    .labelled (.value label) (writeFlat options context stmts) :: writeItems options context rest
  | .defaultLabel stmts :: rest =>
    .labelled .default (writeFlat options context stmts) :: writeItems options context rest
  | other :: rest => .other other.kind :: writeItems options context rest
termination_by structural items => items

end

end StubGen.CUnit
