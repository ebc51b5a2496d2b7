import StubGen.CUnit.Generator
import StubGen.Proofs.Emission.Switches
import StubGen.Proofs.Suite.Writers

/-!
# Emission of a unit

Each writer of code has an emission that writes the same code; `emits_stmt` and `emits_external` say so of statements
and of the items of a unit.

* `generate_eq`: the document of a unit has the lines of its code.
-/

namespace StubGen.CUnit

open Emission

variable {options : UnitOptions} {context : Context}

/-! ### Declarations -/

private theorem emits_class (context : Context) {header : String} (hheader : isSuiteHeader header.toList = true)
    {body : Emission Unit} {piece : TracedCode} (h : Emits body piece) :
    Emits (emitClass context header body) (do return classCode context header (← piece)) := by
  have hsuite := h.block hheader
  unfold emitClass classCode
  cases context.role.isModuleScope with
  | false => exact hsuite
  | true =>
    have hblank := (Emits.blank 1).append hsuite
    simp only [bind_assoc, pure_bind] at hblank
    exact hblank

private theorem emits_enumerators (reduce : Bool) (previous : Option Enumerated) (enumerators : List Node) :
    Emits (emitEnumerators reduce previous enumerators) (writeEnumerators reduce previous enumerators) := by
  induction enumerators generalizing previous with
  | nil => exact .pure
  | cons enumerator rest ih =>
    cases enumerator with
    | enumerator name value =>
      have hline : ∀ text number, Emits
          (do line (escapeName name ++ " = " ++ text); emitEnumerators reduce (some ⟨escapeName name, number⟩) rest)
          (do return .line (escapeName name ++ " = " ++ text) ::
            (← writeEnumerators reduce (some ⟨escapeName name, number⟩) rest)) := by
        intro text number
        have hcons := (Emits.line (escapeName name ++ " = " ++ text)).append (ih (some ⟨escapeName name, number⟩))
        simp only [pure_bind] at hcons
        exact hcons
      cases value with
      | none => exact hline _ _
      | some value =>
        rw [emitEnumerators, writeEnumerators]
        simp only [pure_bind]
        exact .trace fun text _ => hline _ _
    | _ => exact .throw _

theorem emits_enum (reduce : Bool) (context : Context) (name : Option String) (values : Node) :
    Emits (emitEnum reduce context name values) (writeEnum reduce context name values) := by
  cases values with
  | enumeratorList enumerators =>
    cases name with
    | none => exact emits_enumerators reduce none enumerators
    | some name =>
      refine .trace fun _ _ => ?_
      exact emits_class context (isSuiteHeader_append (by decide) _ (by decide))
        (emits_enumerators reduce none enumerators)
  | _ => exact .throw _

private theorem emits_fields (fields : List (String × Hint)) :
    Emits (fields.forM emitField)
      (fields.mapM fun (field, hint) => do return Code.line (field ++ ": " ++ (← hint.toTraced))) := by
  refine .forM_single fun field _ => ?_
  simp only [bind_assoc, pure_bind]
  exact .trace fun text _ => .line _

theorem emits_aggregate (options : UnitOptions) (context : Context) (name : Option String)
    (members : Option (List Node)) :
    Emits (emitAggregate options context name members) (writeAggregate options context name members) := by
  cases name with
  | none => exact .pure
  | some name =>
    cases members with
    | none => exact .pure
    | some members =>
      unfold emitAggregate writeAggregate
      split_ifs
      · exact emits_class context (isSuiteHeader_append (by decide) _ (by decide)) (emits_fields _)
      · exact .pure

theorem emits_innerDefinitions (options : UnitOptions) (context : Context) (type : Node) :
    Emits (emitInnerDefinitions options context type) (writeInnerDefinitions options context type) := by
  induction type using writeInnerDefinitions.induct with
  | case1 name type ih => exact ih
  | case2 target ih => exact ih
  | case3 element size ih => exact ih
  | case4 name values => exact emits_enum options.reduceParentheses context name values
  | case5 name members => exact emits_aggregate options context name (some members)
  | case6 name members => exact emits_aggregate options context name (some members)
  | case7 type =>
    rw [emitInnerDefinitions, writeInnerDefinitions]
    · exact .pure
    all_goals assumption

private theorem emits_initialized (options : UnitOptions) (target : String) (type init : Node) :
    Emits (emitInitialized options target type init) (writeInitialized options target type init) := by
  refine .trace fun value _ => ?_
  split
  · exact .trace fun hint _ => .line _
  · exact .line _

private theorem emits_uninitialized (options : UnitOptions) (context : Context) (target : String) (type : Node) :
    Emits (emitUninitialized options context target type) (writeUninitialized options context target type) := by
  unfold emitUninitialized writeUninitialized
  split_ifs
  · exact .pure
  · exact .trace fun hint _ => .line _
  · exact .line _
  · exact .trace fun hint _ => .line _

theorem emits_decl (options : UnitOptions) (context : Context) (decl : Node) :
    Emits (emitDecl options context decl) (writeDecl options context decl) := by
  fun_cases writeDecl options context decl
  case case1 => exact .pure
  case case2 => exact emits_enum ..
  case case3 => exact emits_aggregate ..
  case case4 => exact emits_aggregate ..
  case case5 =>
    simp only [emitDecl]
    exact .pure
  case case6 name quals storage type init width _ =>
    simp only [emitDecl]
    cases init with
    | none => exact (emits_innerDefinitions ..).append (emits_uninitialized ..)
    | some init => exact (emits_innerDefinitions ..).append (emits_initialized ..)
  case case7 =>
    simp only [emitDecl]
    exact .throw _

theorem emits_typedef (options : UnitOptions) (context : Context) (name : String) (type : Node) :
    Emits (emitTypedef options context name type) (writeTypedef options context name type) := by
  unfold emitTypedef
  fun_cases writeTypedef options context name type
  all_goals simp only [*, if_true, Bool.false_eq_true, if_false]
  · exact emits_enum ..
  · exact emits_aggregate ..
  · exact emits_aggregate ..
  · exact .trace fun hint _ => .line _
  · exact .pure

private theorem emits_paramDefinitions (options : UnitOptions) (context : Context) (args : Option Node) :
    Emits (emitParamDefinitions options context args) (writeParamDefinitions options context args) := by
  cases args with
  | none => exact .pure
  | some args =>
    cases args with
    | paramList params =>
      refine .forM fun param _ => ?_
      cases param with
      | decl => exact emits_innerDefinitions ..
      | _ => exact .pure
    | _ => exact .pure

/-- The head of a function is the header of the suite that its body is. -/
private theorem emits_function (options : UnitOptions) (context : Context) (decl : Node) {body : Emission Unit}
    {piece : TracedCode} (h : Emits body piece) :
    Emits (do emitSignature options context decl; block body) (do
      let (ahead, head) ← writeSignature options context decl
      let code ← piece
      return ahead ++ [.suite head (Code.orPass code)]) := by
  fun_cases writeSignature options context decl
  case case1 name quals storage args result init width =>
    have hdefinitions := (emits_innerDefinitions options (context.withRole .signature) result).append
      (emits_paramDefinitions options (context.withRole .params) args)
    have hsuite : Emits (do line (← signatureHead options name args result); block body)
        (do return [.suite (← signatureHead options name args result) (Code.orPass (← piece))]) :=
      .trace fun head hhead => h.block (isSuiteHeader_signatureHead hhead)
    have hfunction := (hdefinitions.append (.blank 1)).append hsuite
    simp only [emitSignature]
    simp only [bind_assoc, pure_bind] at hfunction ⊢
    exact hfunction
  case case2 =>
    simp only [emitSignature]
    exact .fail _ _ _
  case case3 =>
    simp only [emitSignature]
    exact .fail _ _ _

/-! ### Statements -/

private theorem emits_step (reduce : Bool) (step : Step) :
    Emits (emitStep reduce step) (do return [← writeStep reduce step]) := by
  unfold emitStep writeStep
  simp only [bind_assoc, pure_bind]
  exact .trace fun target _ => .line _

private theorem emits_else (after : Bool) {body : Emission Unit} {piece : TracedCode} (h : Emits body piece) :
    Emits (emitElse after body) (do return elseCode after (← piece)) := by
  unfold emitElse elseCode
  cases after with
  | false => simpa using h
  | true => exact h.block (by decide)

private theorem emits_if (reduce after : Bool) (cond : Node) {whenTrue : Emission Unit} {trueCode : TracedCode}
    {whenFalse : Bool → Emission Unit} {falseCode : Bool → TracedCode} (htrue : Emits whenTrue trueCode)
    (hfalse : ∀ after, Emits (whenFalse after) (falseCode after)) :
    Emits (emitIf reduce after cond whenTrue whenFalse) (writeIf reduce after cond trueCode falseCode) := by
  unfold emitIf writeIf
  cases cond.intValue? with
  | some value =>
    dsimp only
    split_ifs
    · exact emits_else after htrue
    · exact hfalse after
  | none =>
    refine .trace fun test _ => ?_
    have hbranch := (htrue.block (isSuiteHeader_branch after test)).append (hfalse true)
    simp only [bind_assoc, pure_bind] at hbranch
    exact hbranch

private theorem emits_steps (reduce : Bool) (steps : List Step) :
    Emits (steps.forM (emitStep reduce)) (steps.mapM (writeStep reduce)) :=
  .forM_single fun step _ => emits_step reduce step

private theorem emits_while (reduce : Bool) (cond body : Node) {emitBody : Emission Unit} {bodyCode : TracedCode}
    (h : Emits emitBody bodyCode) :
    Emits (emitWhile reduce cond body emitBody) (writeWhile reduce cond body bodyCode) := by
  refine .trace fun parts _ => .guard fun _ => .guard fun _ => ?_
  have hloop : Emits
      (do
        line ("while " ++ (← renderExpr reduce parts.cond) ++ ":")
        block (do emitBody; parts.after.forM (emitStep reduce)))
      (do
        let test ← renderExpr reduce parts.cond
        let body ← bodyCode
        let after ← parts.after.mapM (writeStep reduce)
        return [.suite ("while " ++ test ++ ":") (Code.orPass (body ++ after))]) := by
    refine .trace fun test _ => ?_
    have hheader : isSuiteHeader ("while " ++ test ++ ":").toList = true :=
      isSuiteHeader_append (by decide) test (by decide)
    have hbody := (h.append (emits_steps reduce parts.after)).block hheader
    simp only [bind_assoc, pure_bind] at hbody
    exact hbody
  have hboth := (emits_steps reduce parts.before).append hloop
  simp only [bind_assoc, pure_bind] at hboth
  exact hboth

private theorem emits_leave (test : String) : Emits (emitLeave test) (pure [leaveUnless test]) := .line _

private theorem emits_steppedLoop (reduce : Bool) (cond : Option Node) {emitBody emitNext : Emission Unit}
    {bodyCode nextCode : TracedCode} (hbody : Emits emitBody bodyCode) (hnext : Emits emitNext nextCode) :
    Emits (emitSteppedLoop reduce cond emitBody emitNext) (writeSteppedLoop reduce cond bodyCode nextCode) := by
  have hforever : isSuiteHeader "while True:".toList = true := by decide
  cases cond with
  | none =>
    have hloop := (hbody.append hnext).block hforever
    simp only [bind_assoc, pure_bind] at hloop
    exact hloop
  | some cond =>
    refine .trace fun test _ => ?_
    have hinner := (hbody.append (hnext.append (emits_leave test))).block hforever
    have hloop := hinner.suite (isSuiteHeader_branch false test)
    have hfilled : ∀ body next : List Code, Code.orPass (body ++ (next ++ [leaveUnless test])) =
        body ++ next ++ [leaveUnless test] := by
      intro body next
      rw [Code.orPass, if_neg (by simp), List.append_assoc]
    simp only [bind_assoc, pure_bind, hfilled] at hloop
    exact hloop

private theorem emits_for (reduce : Bool) (init cond next : Option Node) (body : Node)
    {emitInit emitBody emitNext : Emission Unit} {initCode bodyCode nextCode : TracedCode}
    (hinit : Emits emitInit initCode) (hbody : Emits emitBody bodyCode) (hnext : Emits emitNext nextCode) :
    Emits (emitFor reduce init cond next body emitInit emitBody emitNext)
      (writeFor reduce init cond next body initCode bodyCode nextCode) := by
  unfold emitFor writeFor
  cases (do counting? (← init) (← cond) (← next) : Option Counting) with
  | some loop => exact .trace fun header hheader => hbody.block (isSuiteHeader_counting hheader)
  | none =>
    refine .guard fun _ => ?_
    cases next with
    | some next =>
      have hloop := hinit.append (emits_steppedLoop reduce cond hbody hnext)
      cases cond <;> exact hloop
    | none =>
      cases cond with
      | some cond => exact hinit.append (emits_while reduce cond body hbody)
      | none => exact hinit.append (emits_steppedLoop reduce none hbody hnext)

private theorem emits_do (reduce : Bool) (cond body : Node) {emitBody : Emission Unit} {bodyCode : TracedCode}
    (h : Emits emitBody bodyCode) : Emits (emitDo reduce cond body emitBody) (writeDo reduce cond body bodyCode) := by
  refine .guard fun _ => .trace fun test _ => ?_
  have hforever : isSuiteHeader "while True:".toList = true := by decide
  have hloop := (h.append (emits_leave test)).suite hforever
  simp only [bind_assoc, pure_bind] at hloop
  exact hloop

private theorem emits_assert (reduce : Bool) (cond : Node) (note : Option Node) :
    Emits (emitAssert reduce cond note) (writeAssert reduce cond note) := by
  refine .trace fun test _ => ?_
  cases note with
  | none => exact .line _
  | some note => exact .trace fun text _ => .line _

private theorem emits_kept (options : UnitOptions) (context : Context) {stmt : Node} (hbreak : stmt ≠ .breakJump)
    (hcontinue : stmt ≠ .continueJump) :
    Emits (emitKept options context stmt) (writeSimple options context stmt) := by
  cases stmt with
  | breakJump => exact absurd rfl hbreak
  | continueJump => exact absurd rfl hcontinue
  | decl => exact emits_decl ..
  | declList decls => exact .forM fun decl _ => emits_decl options context decl
  | typedef name type => exact emits_typedef ..
  | assign op target value => exact .trace fun text _ => .line text
  | unary op operand =>
    unfold emitKept writeSimple
    dsimp only
    split
    · exact emits_step ..
    · exact .trace fun text _ => .line text
  | returnJump value =>
    cases value with
    | none => exact .line _
    | some value => exact .trace fun text _ => .line _
  | gotoJump label =>
    unfold emitKept writeSimple
    cases options.gotoCall with
    | none => exact .throw _
    | some call => exact .line _
  | empty => exact .pure
  | pragma text => exact .line _
  | staticAssert cond note => exact emits_assert ..
  | call | ident | constant | binary | ternary | subscript | member | cast => exact .trace fun text _ => .line text
  | _ => exact .throw _

/-- Nothing but jumps is left out. -/
private theorem emits_simple (options : UnitOptions) (context : Context) (stmt : Node) :
    Emits (emitSimple options context stmt) (writeSimple options context stmt) := by
  have hjump : ∀ (skipped : Bool) (text : String),
      Emits (if skipped then pure () else line text) (pure (if skipped then [] else [.line text])) := by
    intro skipped text
    cases skipped with
    | false => exact .line text
    | true => exact .pure
  by_cases hbreak : stmt = .breakJump
  · subst hbreak
    rw [emitSimple, Node.kind, Context.skips_break]
    exact hjump context.skip.breaks "break"
  · by_cases hcontinue : stmt = .continueJump
    · subst hcontinue
      rw [emitSimple, Node.kind, Context.skips_continue]
      exact hjump context.skip.continues "continue"
    · have hkept : context.skips stmt.kind = false := by
        refine context.skips_of_ne ?_ ?_
        all_goals
          cases stmt
          all_goals simp_all [Node.kind]
      rw [emitSimple, hkept]
      exact emits_kept options context hbreak hcontinue

/-- The statements can be matched with their code. -/
def MatchedFlat (options : UnitOptions) (context : Context) (stmts : List Node) : Prop :=
  ∃ matched : List (Written Matched), emitFlat options context stmts = matched.map (Written.map Matched.emission) ∧
    writeFlat options context stmts = matched.map (Written.map Matched.piece)

/-- The items can be matched with the code of their statements. -/
def MatchedItems (options : UnitOptions) (context : Context) (items : List Node) : Prop :=
  ∃ matched : List (SwitchItem Matched),
    emitItems options context items = matched.map (SwitchItem.map Matched.emission) ∧
    writeItems options context items = matched.map (SwitchItem.map Matched.piece)

private theorem emits_switchItems {reduce after : Bool} (cond : Node) {emissions : List (SwitchItem (Emission Unit))}
    {pieces : List (SwitchItem TracedCode)} (h : ∃ matched : List (SwitchItem Matched),
      emissions = matched.map (SwitchItem.map Matched.emission) ∧ pieces = matched.map (SwitchItem.map Matched.piece)) :
    Emits (emitElse after (emitSwitch reduce cond emissions))
      (do return elseCode after (← writeSwitch reduce cond pieces)) := by
  obtain ⟨matched, rfl, rfl⟩ := h
  exact emits_else after (emits_switch matched)

mutual

/-- A statement is emitted as it is written. -/
theorem emits_stmt (context : Context) (after : Bool) (stmt : Node) :
    Emits (emitStmt options context after stmt) (writeStmt options context after stmt) := by
  cases stmt with
  | ifElse cond whenTrue whenFalse =>
    have htrue := emits_stmt context false whenTrue
    cases whenFalse with
    | none => exact emits_if _ after cond htrue fun _ => .pure
    | some whenFalse => exact emits_if _ after cond htrue fun after => emits_stmt context after whenFalse
  | block items => exact emits_else after (emits_stmts context items)
  | exprList exprs => exact emits_else after (emits_stmts context exprs)
  | labelled label stmt =>
    have hlabel := (Emits.line ("# label: " ++ label)).append (emits_stmt context false stmt)
    simp only [pure_bind, List.singleton_append] at hlabel
    have helse := emits_else after hlabel
    simp only [bind_assoc, pure_bind] at helse
    exact helse
  | forLoop init cond next body =>
    have hbody := emits_stmt context.enterLoop false body
    cases init with
    | none =>
      cases next with
      | none => exact emits_else after (emits_for _ none cond none body .pure hbody .pure)
      | some next => exact emits_else after (emits_for _ none cond _ body .pure hbody (emits_stmt context false next))
    | some init =>
      have hinit := emits_stmt context false init
      cases next with
      | none => exact emits_else after (emits_for _ _ cond none body hinit hbody .pure)
      | some next => exact emits_else after (emits_for _ _ cond _ body hinit hbody (emits_stmt context false next))
  | whileLoop cond body => exact emits_else after (emits_while _ cond body (emits_stmt context.enterLoop false body))
  | doLoop cond body =>
    unfold emitStmt writeStmt
    split
    · exact emits_else after (emits_stmt context false body)
    · exact emits_else after (emits_do _ cond body (emits_stmt context.enterLoop false body))
  | switch cond body =>
    cases body with
    | block items => exact emits_switchItems cond (matched_items (context.enterLoop.withSkip .onlyBreak) items)
    | caseLabel label stmts =>
      obtain ⟨matched, hemissions, hpieces⟩ := matched_flat (context.enterLoop.withSkip .onlyBreak) stmts
      rw [emitStmt, writeStmt, hemissions, hpieces]
      exact emits_switchItems cond ⟨[.labelled (.value label) matched], rfl, rfl⟩
    | defaultLabel stmts =>
      obtain ⟨matched, hemissions, hpieces⟩ := matched_flat (context.enterLoop.withSkip .onlyBreak) stmts
      rw [emitStmt, writeStmt, hemissions, hpieces]
      exact emits_switchItems cond ⟨[.labelled .default matched], rfl, rfl⟩
    | _ => exact emits_switchItems cond ⟨[.other _], rfl, rfl⟩
  | _ => exact emits_else after (emits_simple options context _)
termination_by sizeOf stmt

private theorem emits_stmts (context : Context) (stmts : List Node) :
    Emits (emitStmts options context stmts) (writeStmts options context stmts) := by
  cases stmts with
  | nil => exact .pure
  | cons stmt rest => exact (emits_stmt context false stmt).append (emits_stmts context rest)
termination_by sizeOf stmts

private theorem matched_flat (context : Context) (stmts : List Node) : MatchedFlat options context stmts := by
  cases stmts with
  | nil => exact ⟨[], rfl, rfl⟩
  | cons stmt rest =>
    obtain ⟨others, hemissions, hpieces⟩ := matched_flat context rest
    have hstmt := emits_stmt context false stmt
    cases stmt with
    | block items =>
      obtain ⟨matched, hemission, hpiece⟩ := matched_flat context items
      refine ⟨matched ++ others, ?_, ?_⟩
      · rw [emitFlat, hemission, hemissions, List.map_append]
      · rw [writeFlat, hpiece, hpieces, List.map_append]
    | _ =>
      exact ⟨⟨_, ⟨_, _, hstmt⟩⟩ :: others, congrArg (List.cons _) hemissions, congrArg (List.cons _) hpieces⟩
termination_by sizeOf stmts

private theorem matched_items (context : Context) (items : List Node) : MatchedItems options context items := by
  cases items with
  | nil => exact ⟨[], rfl, rfl⟩
  | cons item rest =>
    obtain ⟨others, hemissions, hpieces⟩ := matched_items context rest
    cases item with
    | caseLabel label stmts =>
      obtain ⟨matched, hemission, hpiece⟩ := matched_flat context stmts
      refine ⟨.labelled (.value label) matched :: others, ?_, ?_⟩
      · rw [emitItems, hemission, hemissions]
        rfl
      · rw [writeItems, hpiece, hpieces]
        rfl
    | defaultLabel stmts =>
      obtain ⟨matched, hemission, hpiece⟩ := matched_flat context stmts
      refine ⟨.labelled .default matched :: others, ?_, ?_⟩
      · rw [emitItems, hemission, hemissions]
        rfl
      · rw [writeItems, hpiece, hpieces]
        rfl
    | _ => exact ⟨.other _ :: others, congrArg (List.cons _) hemissions, congrArg (List.cons _) hpieces⟩
termination_by sizeOf items

end

/-! ### Units -/

theorem emits_external (options : UnitOptions) (context : Context) (item : Node) :
    Emits (emitExternal options context item) (writeExternal options context item) := by
  cases item with
  | function decl paramDecls body => exact emits_function options context decl (emits_stmt _ false body)
  | decl => exact emits_decl ..
  | typedef name type => exact emits_typedef ..
  | pragma | staticAssert => exact emits_stmt context false _
  | _ => exact .throw _

theorem emits_externals (options : UnitOptions) (items : List Node) :
    Emits (emitExternals options items) (writeExternals options items) := by
  induction items with
  | nil => exact .pure
  | cons item rest ih => exact (emits_external options .outermost item).append ih

/-- A unit is emitted as it is written. -/
theorem emits_unit (options : UnitOptions) (root : Node) : Emits (emitUnit options root) (writeUnit options root) := by
  cases root with
  | unit items => exact emits_externals options items
  | _ => exact .throw _

/-- The document of a unit has the lines of its code and the symbols that the code uses. -/
theorem generate_eq (options : UnitOptions) (root : Node) :
    generate options root = (writeUnit options root).result.map fun code =>
      ⟨options.header, .ofUses (writeUnit options root).uses, [Code.lines code]⟩ := by
  have hunit := (emits_unit options root).emitsAt 0
  unfold generate
  generalize writeUnit options root = piece at hunit ⊢
  cases hunit with
  | failed hnested hleaves =>
    rw [hleaves 0 .start rfl rfl]
    rfl
  | @done code uses hshown hnested hleaves =>
    have hlines : (Output.start.follow 0 ⟨Except.ok (), Code.allRowsAt 0 code, 0, uses⟩).emitter.finish =
        Code.lines code := by
      rw [Code.lines_eq, Code.allLinesAt_eq]
      simp [Output.follow, Output.start, Emitter.finish, Emitter.flush, Emitter.appendLines, Emitter.empty,
        Emitter.weave_nil, Code.rows]
    rw [hleaves 0 .start rfl rfl]
    simp only [Except.map, hlines]
    rfl

end StubGen.CUnit
