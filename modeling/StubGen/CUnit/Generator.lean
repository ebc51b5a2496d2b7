import StubGen.CUnit.Emission
import StubGen.CUnit.Module
import StubGen.Layout.Document

/-!
# Generation from C units

`emitExternals` writes the items of a unit to an emitter, and `generate` makes a document of what it wrote.  The lines
are those of the code that `writeUnit` gives.

* `emitDecl`, `emitTypedef` and `emitSignature` write declarations.
* `emitStmt` writes a statement; `emitIf`, `emitWhile`, `emitFor`, `emitDo` and `emitSwitch` write branches, loops and
  switches around what writes their bodies.
-/

namespace StubGen.CUnit

open Emission

/-! ### Declarations -/

/-- A class.  At the left margin two empty lines precede it. -/
def emitClass (context : Context) (header : String) (body : Emission Unit) : Emission Unit := do
  if context.role.isModuleScope then blank 2
  line header
  block body

/-- The constants of an enumeration, after the enumerator `previous`. -/
def emitEnumerators (reduce : Bool) (previous : Option Enumerated) : List Node → Emission Unit
  | [] => pure ()
  | .enumerator name value :: rest => do
    let member := escapeName name
    let (text, number) ←
      match value with
      | some value => do pure (← renderExpr reduce value, value.intValue?)
      | none => pure (nextEnumerated previous)
    line (member ++ " = " ++ text)
    emitEnumerators reduce (some ⟨member, number⟩) rest
  | other :: _ => unexpected other "enumerator list"

/-- An enumeration: a class if it has a name, and else constants. -/
def emitEnum (reduce : Bool) (context : Context) (name : Option String) (values : Node) : Emission Unit :=
  match values with
  | .enumeratorList enumerators =>
    match name with
    | some name => do
      Traced.use ⟨"enum", "IntEnum"⟩
      emitClass context ("class " ++ escapeName name ++ "(IntEnum):") (emitEnumerators reduce none enumerators)
    | none => emitEnumerators reduce none enumerators
  | other => unexpected other "enum"

/-- An annotated field. -/
def emitField (field : String × Hint) : Emission Unit := do line (field.1 ++ ": " ++ (← field.2.toTraced))

/-- A structure or union, if it has a name and members and such classes are wanted. -/
def emitAggregate (options : UnitOptions) (context : Context) (name : Option String) (members : Option (List Node)) :
    Emission Unit :=
  match name, members with
  | some name, some members =>
    if options.emitAggregates then
      emitClass context ("class " ++ escapeName name ++ ":") ((fieldHints members).forM emitField)
    else pure ()
  | _, _ => pure ()

/-- The definitions of types inside a type. -/
def emitInnerDefinitions (options : UnitOptions) (context : Context) : Node → Emission Unit
  | .typeDecl _ type => emitInnerDefinitions options context type
  | .pointer target => emitInnerDefinitions options context target
  | .array element _ => emitInnerDefinitions options context element
  | .enum name (some values) => emitEnum options.reduceParentheses context name values
  | .struct name (some members) => emitAggregate options context name (some members)
  | .union name (some members) => emitAggregate options context name (some members)
  | _ => pure ()
termination_by structural type => type

/-- A variable with an initial value. -/
def emitInitialized (options : UnitOptions) (target : String) (type init : Node) : Emission Unit := do
  let value ← renderExpr options.reduceParentheses init
  if options.annotateDeclarations then
    line (target ++ ": " ++ (← (typeHint type).toTraced) ++ " = " ++ value)
  else line (target ++ " = " ++ value)

/-- A variable without an initial value.  In a body it leaves no trace, or holds `None`. -/
def emitUninitialized (options : UnitOptions) (context : Context) (target : String) (type : Node) : Emission Unit :=
  if context.role = .body then
    if !options.keepEmptyDeclarations then pure ()
    else if options.annotateDeclarations then do
      line (target ++ ": " ++ (← (typeHint type).toTraced) ++ " | None = None")
    else line (target ++ " = None")
  else do line (target ++ ": " ++ (← (typeHint type).toTraced))

/-- A declaration.  Prototypes leave no trace, and declarations without a name only the type that they define. -/
def emitDecl (options : UnitOptions) (context : Context) : Node → Emission Unit
  | .decl _ _ _ (.functionType ..) _ _ => pure ()
  | .decl none _ _ (.enum name (some values)) _ _ => emitEnum options.reduceParentheses context name values
  | .decl none _ _ (.struct name members) _ _ => emitAggregate options context name members
  | .decl none _ _ (.union name members) _ _ => emitAggregate options context name members
  | .decl none _ _ _ _ _ => pure ()
  | .decl (some name) _ _ type init _ => do
    emitInnerDefinitions options context type
    match init with
    | some init => emitInitialized options (escapeName name) type init
    | none => emitUninitialized options context (escapeName name) type
  | other => unexpected other "declaration"

/-- A type definition.  It names the enumeration, structure or union that it defines, and any other type is an
alias. -/
def emitTypedef (options : UnitOptions) (context : Context) (name : String) (type : Node) : Emission Unit :=
  match definedType type with
  | .enum _ (some values) => emitEnum options.reduceParentheses context (some name) values
  | .struct _ (some members) => emitAggregate options context (some name) (some members)
  | .union _ (some members) => emitAggregate options context (some name) (some members)
  | _ =>
    if options.emitAggregates then do line (escapeName name ++ " = " ++ (← (typeHint type).toTraced))
    else pure ()

/-- The definitions of types inside a parameter. -/
def emitParamDefinition (options : UnitOptions) (context : Context) : Node → Emission Unit
  | .decl _ _ _ type _ _ => emitInnerDefinitions options context type
  | _ => pure ()

/-- The definitions of types inside the parameters of a function. -/
def emitParamDefinitions (options : UnitOptions) (context : Context) : Option Node → Emission Unit
  | some (.paramList params) => params.forM (emitParamDefinition options context)
  | _ => pure ()

/-- The head of a function, after the definitions of the types inside it. -/
def emitSignature (options : UnitOptions) (context : Context) : Node → Emission Unit
  | .decl (some name) _ _ (.functionType args result) _ _ => do
    emitInnerDefinitions options (context.withRole .signature) result
    emitParamDefinitions options (context.withRole .params) args
    blank 2
    line (← signatureHead options name args result)
  | .decl (some _) _ _ type _ _ => unexpected type "function signature"
  | other => unexpected other "function definition"

/-! ### Statements -/

/-- A step as a statement. -/
def emitStep (reduce : Bool) (step : Step) : Emission Unit := do
  let target ← renderExpr reduce step.operand
  line (target ++ (if step.op.endsWith "+" then " += 1" else " -= 1"))

/-- Writes in an `else` branch if a test of the same chain stands before. -/
def emitElse (after : Bool) (body : Emission Unit) : Emission Unit := do
  if after then
    line "else:"
    block body
  else body

/-- A branch point.  `after` says that a test of the same chain stands before it, and how the alternative is written
depends on that too.  An integer constant decides the branch, and the other one leaves no trace. -/
def emitIf (reduce after : Bool) (cond : Node) (whenTrue : Emission Unit) (whenFalse : Bool → Emission Unit) :
    Emission Unit :=
  match cond.intValue? with
  | some value => if value ≠ 0 then emitElse after whenTrue else whenFalse after
  | none => do
    let test ← renderExpr reduce cond
    line ((if after then "elif " else "if ") ++ test ++ ":")
    block whenTrue
    whenFalse true

/-- A `while` loop around its body. -/
def emitWhile (reduce : Bool) (cond body : Node) (emitBody : Emission Unit) : Emission Unit := do
  let test ← (⟨[], splitTest cond⟩ : Traced SplitTest)
  if !test.after.isEmpty && containsJump .onlyContinue body then throw .continueSkipsStep
  -- a postfix step happens before the body, so a `break` must not leave it out
  if test.after.any Step.isPostfix && containsJump .onlyBreak body then throw .breakSkipsEffect
  test.before.forM (emitStep reduce)
  line ("while " ++ (← renderExpr reduce test.cond) ++ ":")
  block do
    emitBody
    test.after.forM (emitStep reduce)

/-- The line at the end of a body that leaves the loop when its test fails. -/
def emitLeave (test : String) : Emission Unit := line ("if not (" ++ test ++ "): break")

/-- A loop with a step: the test stands before the loop and at the end of its body. -/
def emitSteppedLoop (reduce : Bool) (cond : Option Node) (emitBody emitNext : Emission Unit) : Emission Unit :=
  match cond with
  | some cond => do
    let test ← renderExpr reduce cond
    line ("if " ++ test ++ ":")
    indent
    line "while True:"
    block do
      emitBody
      emitNext
      emitLeave test
    dedent
  | none => do
    line "while True:"
    block do
      emitBody
      emitNext

/-- A `for` loop around its parts.  A loop that counts runs over a range, and a loop without a step is a `while`
loop. -/
def emitFor (reduce : Bool) (init cond next : Option Node) (body : Node) (emitInit emitBody emitNext : Emission Unit) :
    Emission Unit :=
  match (do counting? (← init) (← cond) (← next) : Option Counting) with
  | some loop => do
    line (← countingHeader reduce loop)
    block emitBody
  | none => do
    if next.isSome && containsJump .onlyContinue body then throw .continueSkipsStep
    emitInit
    match cond, next with
    | some cond, none => emitWhile reduce cond body emitBody
    | _, _ => emitSteppedLoop reduce cond emitBody emitNext

/-- A loop that tests at its end. -/
def emitDo (reduce : Bool) (cond body : Node) (emitBody : Emission Unit) : Emission Unit := do
  -- a `continue` would leave the test out
  if containsJump .onlyContinue body then throw .continueSkipsStep
  let test ← renderExpr reduce cond
  line "while True:"
  indent
  emitBody
  emitLeave test
  dedent

/-- An assertion. -/
def emitAssert (reduce : Bool) (cond : Node) (note : Option Node) : Emission Unit := do
  let test ← renderExpr reduce cond
  match note with
  | some note => line ("assert " ++ test ++ ", " ++ (← renderExpr reduce note))
  | none => line ("assert " ++ test)

/-- A statement that is no block, branch, loop or switch. -/
def emitKept (options : UnitOptions) (context : Context) (stmt : Node) : Emission Unit :=
  let reduce := options.reduceParentheses
  match stmt with
  | .decl .. => emitDecl options context stmt
  | .declList decls => decls.forM (emitDecl options context)
  | .typedef name type => emitTypedef options context name type
  | .assign op target value => do line (← renderAssignment reduce op target value)
  | .unary op operand =>
    if Node.isStepOp op then emitStep reduce ⟨op, operand⟩
    else do line (← renderExpr reduce stmt)
  | .returnJump none => line "return"
  | .returnJump (some value) => do line ("return " ++ (← renderExpr reduce value))
  | .breakJump => line "break"
  | .continueJump => line "continue"
  | .gotoJump label =>
    match options.gotoCall with
    | some call => line (call ++ "('" ++ label ++ "')")
    | none => throw (.goto label)
  | .empty => pure ()
  | .pragma text => line ("#pragma " ++ text.getD "")
  | .staticAssert cond note => emitAssert reduce cond note
  | .caseLabel .. | .defaultLabel _ => unexpected stmt "statement outside switch"
  | .call .. | .ident _ | .constant .. | .binary .. | .ternary .. | .subscript .. | .member .. | .cast .. => do
    line (← renderExpr reduce stmt)
  | _ => unexpected stmt "statement"

/-- A statement that is no block, branch, loop or switch, if the context does not leave it out. -/
def emitSimple (options : UnitOptions) (context : Context) (stmt : Node) : Emission Unit :=
  if context.skips stmt.kind then pure () else emitKept options context stmt

/-! ### Switches -/

/-- Statements, one after the other. -/
def emitSequence (stmts : List (Written (Emission Unit))) : Emission Unit := stmts.forM Written.code

/-- An arm of a `match`. -/
def emitCase (reduce : Bool) (cond : Node) (arm : Arm (Emission Unit)) : Emission Unit := do
  line (← caseHeader reduce cond arm)
  block (emitSequence arm.body)

/-- A `match` over the arms. -/
def emitMatch (reduce : Bool) (cond : Node) (arms : List (Arm (Emission Unit))) : Emission Unit := do
  line ("match " ++ (← renderExpr reduce cond) ++ ":")
  indent
  (matchOrder arms).forM (emitCase reduce cond)
  dedent

/-- A chain of tests.  A default label that is the only one needs no test. -/
def emitChain (reduce : Bool) (cond : Node) (first : Bool) :
    List (CaseLabel × List (Written (Emission Unit))) → Emission Unit
  | [] => pure ()
  | (.value label, stmts) :: rest => do
    let test ← renderExpr reduce (.binary "==" cond label)
    line ((if first then "if " else "elif ") ++ test ++ ":")
    block (emitSequence stmts)
    emitChain reduce cond false rest
  | (.default, stmts) :: rest => do
    emitElse (!first) (emitSequence stmts)
    emitChain reduce cond first rest

/-- A switch with arms that run into the next one.  The discriminant is evaluated many times, so it has to be a
variable or a constant. -/
def emitFallthrough (reduce : Bool) (cond : Node) (arms : List (Arm (Emission Unit))) : Emission Unit :=
  match cond with
  | .ident _ | .constant .. =>
    if defaultBeforeLast (arms.flatMap Arm.labels) then throw .defaultNotLast
    else emitChain reduce cond true ((regions arms).flatMap regionEntries)
  | other => throw (.unsupportedDiscriminant other.kind)

/-- A switch over its items; nothing if it has no labels. -/
def emitSwitch (reduce : Bool) (cond : Node) (items : List (SwitchItem (Emission Unit))) : Emission Unit := do
  let arms ← armsOf reduce items
  if arms.isEmpty then pure ()
  else if fallsThrough arms then emitFallthrough reduce cond arms
  else emitMatch reduce cond arms

mutual

/-- A statement.  `after` says that the statement is the alternative of a test that has been written. -/
def emitStmt (options : UnitOptions) (context : Context) (after : Bool) : Node → Emission Unit
  | .ifElse cond whenTrue none =>
    emitIf options.reduceParentheses after cond (emitStmt options context false whenTrue) fun _ => pure ()
  | .ifElse cond whenTrue (some whenFalse) =>
    emitIf options.reduceParentheses after cond (emitStmt options context false whenTrue) fun after =>
      emitStmt options context after whenFalse
  | .block items => emitElse after (emitStmts options context items)
  | .exprList exprs => emitElse after (emitStmts options context exprs)
  | .labelled label stmt => emitElse after do
    line ("# label: " ++ label)
    emitStmt options context false stmt
  | .forLoop init cond next body =>
    let emitInit :=
      match init with
      | some init => emitStmt options context false init
      | none => pure ()
    let emitNext :=
      match next with
      | some next => emitStmt options context false next
      | none => pure ()
    emitElse after
      (emitFor options.reduceParentheses init cond next body emitInit
        (emitStmt options context.enterLoop false body) emitNext)
  | .whileLoop cond body =>
    emitElse after (emitWhile options.reduceParentheses cond body (emitStmt options context.enterLoop false body))
  | .doLoop cond body =>
    -- a body that runs exactly once needs no loop
    if cond.intValue? = some 0 && !containsJump .both body then
      emitElse after (emitStmt options context false body)
    else
      emitElse after (emitDo options.reduceParentheses cond body (emitStmt options context.enterLoop false body))
  | .switch cond (.block items) =>
    let inner := context.enterLoop.withSkip .onlyBreak
    emitElse after (emitSwitch options.reduceParentheses cond (emitItems options inner items))
  | .switch cond (.caseLabel label stmts) =>
    let inner := context.enterLoop.withSkip .onlyBreak
    emitElse after
      (emitSwitch options.reduceParentheses cond [.labelled (.value label) (emitFlat options inner stmts)])
  | .switch cond (.defaultLabel stmts) =>
    let inner := context.enterLoop.withSkip .onlyBreak
    emitElse after (emitSwitch options.reduceParentheses cond [.labelled .default (emitFlat options inner stmts)])
  | .switch cond body => emitElse after (emitSwitch options.reduceParentheses cond [.other body.kind])
  | stmt => emitElse after (emitSimple options context stmt)
termination_by structural stmt => stmt

/-- Statements, one after the other. -/
def emitStmts (options : UnitOptions) (context : Context) : List Node → Emission Unit
  | [] => pure ()
  | stmt :: rest => do
    emitStmt options context false stmt
    emitStmts options context rest
termination_by structural stmts => stmts

/-- The statements of an arm, each with what writes it; those of nested blocks count as statements of the arm. -/
def emitFlat (options : UnitOptions) (context : Context) : List Node → List (Written (Emission Unit))
  | [] => []
  | .block items :: rest => emitFlat options context items ++ emitFlat options context rest
  | stmt :: rest => ⟨stmt, emitStmt options context false stmt⟩ :: emitFlat options context rest
termination_by structural stmts => stmts

/-- The items of a switch. -/
def emitItems (options : UnitOptions) (context : Context) : List Node → List (SwitchItem (Emission Unit))
  | [] => []
  | .caseLabel label stmts :: rest =>
    .labelled (.value label) (emitFlat options context stmts) :: emitItems options context rest
  | .defaultLabel stmts :: rest =>
    .labelled .default (emitFlat options context stmts) :: emitItems options context rest
  | other :: rest => .other other.kind :: emitItems options context rest
termination_by structural items => items

end

/-! ### Units -/

/-- An item of a unit. -/
def emitExternal (options : UnitOptions) (context : Context) (item : Node) : Emission Unit :=
  match item with
  | .function decl _ body => do
    emitSignature options context decl
    block (emitStmt options (context.withRole .body) false body)
  | .decl .. => emitDecl options context item
  | .typedef name type => emitTypedef options context name type
  | .pragma _ | .staticAssert .. => emitStmt options context false item
  | other => unexpected other "translation unit"

/-- The items of a unit, in order. -/
def emitExternals (options : UnitOptions) (items : List Node) : Emission Unit :=
  items.forM (emitExternal options .outermost)

/-- A unit. -/
def emitUnit (options : UnitOptions) : Node → Emission Unit
  | .unit items => emitExternals options items
  | other => unexpected other "translation unit root"

/-- The document of a unit. -/
def generate (options : UnitOptions) (root : Node) : Except GenerateError Document :=
  let (result, output) := (emitUnit options root).exec .start
  result.map fun _ => ⟨options.header, output.imports, [output.emitter.finish]⟩

end StubGen.CUnit
