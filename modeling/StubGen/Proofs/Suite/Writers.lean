import StubGen.CUnit.Module
import StubGen.Proofs.Jump.Binding
import StubGen.Proofs.Loop.Test
import StubGen.Proofs.Suite.Shape

/-!
# The code of a unit

Whatever is written for a unit is laid out code, and its lines are of few forms.

* `LineText` lists the forms of lines.  Its parts come from a tree of which `P` holds everywhere, so what `P` says of
  nodes is known of the lines.
* `laid_writeDecl` and its like follow the writers of declarations, `laid_writeStmt` those of statements, and
  `laid_writeExternal` those of the items of a unit.
-/

namespace StubGen.CUnit

open Traced

variable {options : UnitOptions} {context : Context} {P : Node → Prop} {code : List Code}

/-! ### Lines -/

/-- What a name is set to. -/
inductive ValueText (options : UnitOptions) (P : Node → Prop) : String → Prop
  | expr {expr : Node} {text : String} : Everywhere P expr →
      (renderExpr options.reduceParentheses expr).result = .ok text → ValueText options P text
  | hint {type : Node} : Everywhere P type → ValueText options P (typeHint type).text
  | number (value : Int) : ValueText options P (toString value)
  | next {name : String} : NameIn P name → ValueText options P (escapeName name ++ " + 1")

/-- The lines of the code of a unit. -/
inductive LineText (options : UnitOptions) (P : Node → Prop) : String → Prop
  | pass : LineText options P "pass"
  | assigned {name value : String} : NameIn P name → ValueText options P value →
      LineText options P (escapeName name ++ " = " ++ value)
  | annotated {name : String} {type : Node} : NameIn P name → Everywhere P type →
      LineText options P (escapeName name ++ ": " ++ (typeHint type).text)
  | annotatedValue {name value : String} (type : Node) : NameIn P name → ValueText options P value →
      LineText options P (escapeName name ++ ": " ++ (typeHint type).text ++ " = " ++ value)
  | unset {name : String} : NameIn P name → LineText options P (escapeName name ++ " = None")
  | annotatedUnset {name : String} (type : Node) : NameIn P name →
      LineText options P (escapeName name ++ ": " ++ (typeHint type).text ++ " | None = None")
  | step {operand : Node} {target ending : String} : Everywhere P operand →
      (renderExpr options.reduceParentheses operand).result = .ok target → ending ∈ [" += 1", " -= 1"] →
      LineText options P (target ++ ending)
  | leave (test : String) : LineText options P ("if not (" ++ test ++ "): break")
  | assertion {test : Node} {text : String} : Everywhere P test →
      (renderExpr options.reduceParentheses test).result = .ok text → LineText options P ("assert " ++ text)
  | assertionNote (test : String) {note : Node} {text : String} : Everywhere P note →
      (renderExpr options.reduceParentheses note).result = .ok text →
      LineText options P ("assert " ++ test ++ ", " ++ text)
  | assignment {op text : String} {target value : Node} : Everywhere P target → Everywhere P value →
      (renderAssignment options.reduceParentheses op target value).result = .ok text → LineText options P text
  | expr {expr : Node} {text : String} : Everywhere P expr →
      (renderExpr options.reduceParentheses expr).result = .ok text → LineText options P text
  | leaveFunction : LineText options P "return"
  | result {value : Node} {text : String} : Everywhere P value →
      (renderExpr options.reduceParentheses value).result = .ok text → LineText options P ("return " ++ text)
  | breakJump : LineText options P "break"
  | continueJump : LineText options P "continue"
  | gotoJump {call : String} (label : String) : options.gotoCall = some call →
      LineText options P (call ++ "('" ++ label ++ "')")
  | pragma {text : Option String} : P (.pragma text) → LineText options P ("#pragma " ++ text.getD "")
  | label {label : String} {stmt : Node} : P (.labelled label stmt) → LineText options P ("# label: " ++ label)

/-- The code is laid out, with lines that come from nodes of which `P` holds. -/
def LaidFrom (options : UnitOptions) (P : Node → Prop) (code : List Code) : Prop := Laid (LineText options P) code

namespace LaidFrom

variable {header : String} {first second : List Code}

theorem orPass (h : LaidFrom options P first) : LaidFrom options P (Code.orPass first) := Laid.orPass .pass h

theorem suite (hheader : isSuiteHeader header.toList = true) (h : LaidFrom options P first) :
    LaidFrom options P [.suite header (Code.orPass first)] := Laid.suiteOrPass hheader .pass h

theorem elseCode (after : Bool) (h : LaidFrom options P first) : LaidFrom options P (elseCode after first) := by
  unfold CUnit.elseCode
  split
  · exact suite (by decide) h
  · exact h

end LaidFrom

/-! ### Declarations -/

private theorem nameIn_head {node : Node} (h : Everywhere P node) {name : String} (hname : name ∈ node.names) :
    NameIn P name := ⟨node, h.self, hname⟩

private theorem valueText_nextEnumerated {previous : Option Enumerated}
    (h : ∀ enumerated, previous = some enumerated → ∃ name, NameIn P name ∧ enumerated.name = escapeName name) :
    ValueText options P (nextEnumerated previous).1 := by
  unfold nextEnumerated
  split
  · exact .number 0
  · rename_i enumerated
    obtain ⟨name, hname, heq⟩ := h enumerated rfl
    split
    · exact .number _
    · rw [heq]
      exact .next hname

private theorem laid_writeEnumerators {previous : Option Enumerated} {enumerators : List Node}
    (hprevious : ∀ enumerated, previous = some enumerated →
      ∃ name, NameIn P name ∧ enumerated.name = escapeName name)
    (h : ∀ enumerator ∈ enumerators, Everywhere P enumerator)
    (hcode : (writeEnumerators options.reduceParentheses previous enumerators).result = .ok code) :
    LaidFrom options P code := by
  induction enumerators generalizing previous code with
  | nil =>
    cases hcode
    exact .nil
  | cons enumerator rest ih =>
    obtain ⟨henumerator, hrest⟩ := List.forall_mem_cons.mp h
    obtain ⟨name, value, text, number, others, rfl, hvalue, hothers, rfl⟩ := writeEnumerators_cons_ok hcode
    have hname : NameIn P name := nameIn_head henumerator (List.mem_singleton_self name)
    refine Laid.line (.assigned hname ?_) (ih (fun enumerated heq => ?_) hrest hothers)
    · rcases hvalue with ⟨-, hnext⟩ | ⟨expr, rfl, htext, -⟩
      · have htext : ValueText options P (nextEnumerated previous).1 := valueText_nextEnumerated hprevious
        rwa [← hnext] at htext
      · exact .expr (henumerator.parts expr (by simp [Node.parts])) htext
    · cases heq
      exact ⟨name, hname, rfl⟩

private theorem laid_classCode (context : Context) {header : String} (hheader : isSuiteHeader header.toList = true)
    (h : LaidFrom options P code) : LaidFrom options P (classCode context header code) := by
  have hsuite := LaidFrom.suite hheader h
  unfold classCode
  split
  · exact Laid.blank 2 (by simp) hsuite
  · exact hsuite

private theorem laid_writeEnum {name : Option String} {values : Node} (h : Everywhere P values)
    (hcode : (writeEnum options.reduceParentheses context name values).result = .ok code) :
    LaidFrom options P code := by
  unfold writeEnum at hcode
  split at hcode
  · split at hcode
    · obtain ⟨_, -, hcode⟩ := bind_eq_ok.mp hcode
      obtain ⟨body, hbody, hcode⟩ := bind_eq_ok.mp hcode
      cases hcode
      exact laid_classCode context (isSuiteHeader_append (by decide) _ (by decide))
        (laid_writeEnumerators (by simp) h.parts hbody)
    · exact laid_writeEnumerators (by simp) h.parts hcode
  · cases hcode

private theorem mem_fieldHints {members : List Node} (h : ∀ part ∈ members, Everywhere P part) :
    ∀ field ∈ fieldHints members, ∃ name type, field = (escapeName name, typeHint type) ∧ NameIn P name ∧
      Everywhere P type := by
  induction members using fieldHints.induct with
  | case1 => simp [fieldHints]
  | case2 name quals storage type init width rest ih =>
    have hmember := h _ (List.mem_cons_self ..)
    intro field hfield
    rw [fieldHints, List.mem_cons] at hfield
    rcases hfield with rfl | hfield
    · exact ⟨name, type, rfl, nameIn_head hmember (List.mem_singleton_self name),
        hmember.parts type (by simp [Node.parts])⟩
    · exact ih (fun part hpart => h part (List.mem_cons_of_mem _ hpart)) field hfield
  | case3 other rest hother ih =>
    rw [fieldHints]
    · exact ih fun part hpart => h part (List.mem_cons_of_mem _ hpart)
    · exact hother

private theorem laid_writeAggregate {name : Option String} {members : Option (List Node)}
    (h : ∀ part ∈ members.getD [], Everywhere P part)
    (hcode : (writeAggregate options context name members).result = .ok code) : LaidFrom options P code := by
  unfold writeAggregate at hcode
  split at hcode
  · split at hcode
    · obtain ⟨body, hbody, hcode⟩ := bind_eq_ok.mp hcode
      cases hcode
      refine laid_classCode context (isSuiteHeader_append (by decide) _ (by decide)) ?_
      refine Laid.of_forall fun line hline => ?_
      obtain ⟨field, hfield, hresult⟩ := exists_of_mapM_eq_ok hbody line hline
      obtain ⟨name, type, rfl, hname, htype⟩ := mem_fieldHints h field hfield
      cases hresult
      exact .single (.annotated hname htype)
    · cases hcode
      exact .nil
  · cases hcode
    exact .nil

private theorem laid_writeInnerDefinitions {type : Node} (h : Everywhere P type)
    (hcode : (writeInnerDefinitions options context type).result = .ok code) : LaidFrom options P code := by
  induction type using writeInnerDefinitions.induct with
  | case1 name type ih => exact ih (h.parts type (by simp [Node.parts])) hcode
  | case2 target ih => exact ih (h.parts target (by simp [Node.parts])) hcode
  | case3 element size ih => exact ih (h.parts element (by simp [Node.parts])) hcode
  | case4 name values => exact laid_writeEnum (h.parts values (by simp [Node.parts])) hcode
  | case5 name members =>
    have hmembers : ∀ part ∈ (some members).getD [], Everywhere P part := h.parts
    exact laid_writeAggregate hmembers hcode
  | case6 name members =>
    have hmembers : ∀ part ∈ (some members).getD [], Everywhere P part := h.parts
    exact laid_writeAggregate hmembers hcode
  | case7 type =>
    rw [writeInnerDefinitions] at hcode
    · cases hcode
      exact .nil
    all_goals assumption

private theorem laid_writeInitialized {name : String} {type init : Node} (hname : NameIn P name)
    (hinit : Everywhere P init)
    (hcode : (writeInitialized options (escapeName name) type init).result = .ok code) : LaidFrom options P code := by
  obtain ⟨value, hvalue, hcode⟩ := bind_eq_ok.mp hcode
  split at hcode
  · cases hcode
    exact .single (.annotatedValue type hname (.expr hinit hvalue))
  · cases hcode
    exact .single (.assigned hname (.expr hinit hvalue))

private theorem laid_writeUninitialized {name : String} {type : Node} (hname : NameIn P name) (h : Everywhere P type)
    (hcode : (writeUninitialized options context (escapeName name) type).result = .ok code) :
    LaidFrom options P code := by
  unfold writeUninitialized at hcode
  split_ifs at hcode
  · cases hcode
    exact .nil
  · cases hcode
    exact .single (.annotatedUnset type hname)
  · cases hcode
    exact .single (.unset hname)
  · cases hcode
    exact .single (.annotated hname h)

theorem laid_writeDecl {decl : Node} (h : Everywhere P decl)
    (hcode : (writeDecl options context decl).result = .ok code) : LaidFrom options P code := by
  unfold writeDecl at hcode
  split at hcode
  · cases hcode
    exact .nil
  · exact laid_writeEnum ((h.parts _ (List.mem_cons_self ..)).parts _ (by simp [Node.parts])) hcode
  · exact laid_writeAggregate (h.parts _ (List.mem_cons_self ..)).parts hcode
  · exact laid_writeAggregate (h.parts _ (List.mem_cons_self ..)).parts hcode
  · cases hcode
    exact .nil
  · rename_i name quals storage type init width hfunction
    have hname : NameIn P name := nameIn_head h (List.mem_singleton_self name)
    have htype := h.parts type (by simp [Node.parts])
    obtain ⟨inner, hinner, hcode⟩ := bind_eq_ok.mp hcode
    have hdefinitions : LaidFrom options P inner := laid_writeInnerDefinitions htype hinner
    cases init with
    | none =>
      obtain ⟨line, hline, hcode⟩ := bind_eq_ok.mp hcode
      cases hcode
      exact hdefinitions.append (laid_writeUninitialized hname htype hline)
    | some init =>
      obtain ⟨line, hline, hcode⟩ := bind_eq_ok.mp hcode
      cases hcode
      exact hdefinitions.append (laid_writeInitialized hname (h.parts init (by simp [Node.parts])) hline)
  · cases hcode

private theorem everywhere_definedType {type : Node} (h : Everywhere P type) : Everywhere P (definedType type) := by
  unfold definedType
  split
  · exact h.parts _ (by simp [Node.parts])
  · exact h

theorem laid_writeTypedef {name : String} {type : Node} (h : Everywhere P (.typedef name type))
    (hcode : (writeTypedef options context name type).result = .ok code) : LaidFrom options P code := by
  have htype := h.parts type (by simp [Node.parts])
  have hdefined := everywhere_definedType htype
  unfold writeTypedef at hcode
  split at hcode
  · rename_i heq
    rw [heq] at hdefined
    exact laid_writeEnum (hdefined.parts _ (by simp [Node.parts])) hcode
  · rename_i tag members heq
    rw [heq] at hdefined
    have hmembers : ∀ part ∈ (some members).getD [], Everywhere P part := hdefined.parts
    exact laid_writeAggregate hmembers hcode
  · rename_i tag members heq
    rw [heq] at hdefined
    have hmembers : ∀ part ∈ (some members).getD [], Everywhere P part := hdefined.parts
    exact laid_writeAggregate hmembers hcode
  · split at hcode
    · cases hcode
      exact .single (.assigned (nameIn_head h (List.mem_singleton_self name)) (.hint htype))
    · cases hcode
      exact .nil

/-! ### Simple statements -/

private theorem laid_writeStep {step : Step} {line : Code} (h : Everywhere P step.operand)
    (hcode : (writeStep options.reduceParentheses step).result = .ok line) : LaidFrom options P [line] := by
  obtain ⟨target, htarget, hcode⟩ := bind_eq_ok.mp hcode
  cases hcode
  exact .single (.step h htarget (by split <;> simp))

private theorem laid_expression {expr : Node} (h : Everywhere P expr)
    (hcode : (do return [Code.line (← renderExpr options.reduceParentheses expr)] : Traced (List Code)).result =
      .ok code) : LaidFrom options P code := by
  obtain ⟨text, htext, hcode⟩ := bind_eq_ok.mp hcode
  cases hcode
  exact .single (.expr h htext)

private theorem laid_writeAssert {cond : Node} {note : Option Node} (hcond : Everywhere P cond)
    (hnote : ∀ text ∈ note, Everywhere P text)
    (hcode : (writeAssert options.reduceParentheses cond note).result = .ok code) : LaidFrom options P code := by
  obtain ⟨test, htest, hcode⟩ := bind_eq_ok.mp hcode
  cases note with
  | none =>
    cases hcode
    exact .single (.assertion hcond htest)
  | some note =>
    obtain ⟨text, htext, hcode⟩ := bind_eq_ok.mp hcode
    cases hcode
    exact .single (.assertionNote test (hnote note rfl) htext)

theorem laid_writeSimple {stmt : Node} (h : Everywhere P stmt)
    (hcode : (writeSimple options context stmt).result = .ok code) : LaidFrom options P code := by
  unfold writeSimple at hcode
  split at hcode
  case h_1 => exact laid_writeDecl h hcode
  case h_2 decls =>
    obtain ⟨parts, hparts, hcode⟩ := bind_eq_ok.mp hcode
    cases hcode
    refine Laid.flatten fun part hpart => ?_
    obtain ⟨decl, hdecl, hresult⟩ := exists_of_mapM_eq_ok hparts part hpart
    exact laid_writeDecl (h.parts decl hdecl) hresult
  case h_3 name type => exact laid_writeTypedef h hcode
  case h_4 op target value =>
    obtain ⟨text, htext, hcode⟩ := bind_eq_ok.mp hcode
    cases hcode
    exact .single (.assignment (h.parts target (by simp [Node.parts])) (h.parts value (by simp [Node.parts])) htext)
  case h_5 op operand =>
    split at hcode
    · obtain ⟨line, hline, hcode⟩ := bind_eq_ok.mp hcode
      cases hcode
      exact laid_writeStep (h.parts operand (by simp [Node.parts])) hline
    · exact laid_expression h hcode
  case h_6 =>
    cases hcode
    exact .single .leaveFunction
  case h_7 value =>
    obtain ⟨text, htext, hcode⟩ := bind_eq_ok.mp hcode
    cases hcode
    exact .single (.result (h.parts value (by simp [Node.parts])) htext)
  case h_8 =>
    cases hcode
    split
    · exact .nil
    · exact .single .breakJump
  case h_9 =>
    cases hcode
    split
    · exact .nil
    · exact .single .continueJump
  case h_10 label =>
    split at hcode
    · rename_i call hcall
      cases hcode
      exact .single (.gotoJump label hcall)
    · cases hcode
  case h_11 =>
    cases hcode
    exact .nil
  case h_12 text =>
    cases hcode
    exact .single (.pragma h.self)
  case h_13 cond note =>
    exact laid_writeAssert (h.parts cond (by simp [Node.parts]))
      (fun text htext => h.parts text (List.mem_cons_of_mem cond (Option.mem_toList.mpr htext))) hcode
  case h_14 => cases hcode
  case h_15 => cases hcode
  case h_24 => cases hcode
  all_goals exact laid_expression h hcode

/-! ### Switches -/

/-- The statements write laid out code. -/
def WritesLaid (options : UnitOptions) (P : Node → Prop) (body : List (Written TracedCode)) : Prop :=
  ∀ written ∈ body, ∀ code, written.code.result = .ok code → LaidFrom options P code

private theorem laid_sequence {body : List (Written TracedCode)} (h : WritesLaid options P body)
    (hcode : (sequence body).result = .ok code) : LaidFrom options P code := by
  induction body generalizing code with
  | nil =>
    cases hcode
    exact .nil
  | cons written rest ih =>
    obtain ⟨first, hfirst, hcode⟩ := bind_eq_ok.mp hcode
    obtain ⟨others, hothers, hcode⟩ := bind_eq_ok.mp hcode
    cases hcode
    exact Laid.append (h written (List.mem_cons_self ..) first hfirst)
      (ih (fun other hother => h other (List.mem_cons_of_mem written hother)) hothers)

theorem isSuiteHeader_caseHeader {reduce : Bool} {cond : Node} {arm : Arm TracedCode} {header : String}
    (h : (caseHeader reduce cond arm).result = .ok header) : isSuiteHeader header.toList = true := by
  have hheader := isHeader_caseHeader h
  generalize caseTest cond arm = test at hheader
  cases hheader with
  | always => decide
  | among => exact isSuiteHeader_append (by decide) _ (by decide)
  | guard => exact isSuiteHeader_append (by decide) _ (by decide)

private theorem laid_writeMatch {cond : Node} {arms : List (Arm TracedCode)} (hne : arms ≠ [])
    (h : ∀ arm ∈ arms, WritesLaid options P arm.body)
    (hcode : (writeMatch options.reduceParentheses cond arms).result = .ok code) : LaidFrom options P code := by
  obtain ⟨subject, -, hcode⟩ := bind_eq_ok.mp hcode
  obtain ⟨suites, hsuites, hcode⟩ := bind_eq_ok.mp hcode
  cases hcode
  have hcases : LaidFrom options P suites := by
    refine Laid.of_forall fun suite hsuite => ?_
    obtain ⟨arm, harm, hresult⟩ := exists_of_mapM_eq_ok hsuites suite hsuite
    obtain ⟨header, hheader, hresult⟩ := bind_eq_ok.mp hresult
    obtain ⟨body, hbody, hresult⟩ := bind_eq_ok.mp hresult
    cases hresult
    exact LaidFrom.suite (isSuiteHeader_caseHeader hheader) (laid_sequence (h arm (mem_of_mem_matchOrder harm)) hbody)
  have hshown : suites ≠ [] := by
    have hlength := length_of_mapM_eq_ok hsuites
    rw [length_matchOrder] at hlength
    exact List.ne_nil_of_length_pos (hlength ▸ List.length_pos_of_ne_nil hne)
  exact Laid.suite (isSuiteHeader_append (by decide) _ (by decide)) hshown hcases .nil

private theorem laid_writeChain {first : Bool} {cond : Node} {entries : List (CaseLabel × List (Written TracedCode))}
    (h : ∀ entry ∈ entries, WritesLaid options P entry.2)
    (hcode : (writeChain options.reduceParentheses cond first entries).result = .ok code) :
    LaidFrom options P code := by
  induction entries generalizing first code with
  | nil =>
    cases hcode
    exact .nil
  | cons entry rest ih =>
    obtain ⟨label, stmts⟩ := entry
    have hstmts := h _ (List.mem_cons_self ..)
    have hrest : ∀ entry ∈ rest, WritesLaid options P entry.2 :=
      fun entry hentry => h entry (List.mem_cons_of_mem _ hentry)
    cases label with
    | value label =>
      obtain ⟨test, -, hcode⟩ := bind_eq_ok.mp hcode
      obtain ⟨body, hbody, hcode⟩ := bind_eq_ok.mp hcode
      obtain ⟨others, hothers, hcode⟩ := bind_eq_ok.mp hcode
      cases hcode
      have hheader : isSuiteHeader ((if first then "if " else "elif ") ++ test ++ ":").toList = true :=
        isSuiteHeader_append (by split <;> decide) test (by decide)
      exact Laid.append (LaidFrom.suite hheader (laid_sequence hstmts hbody)) (ih hrest hothers)
    | default =>
      obtain ⟨body, hbody, hcode⟩ := bind_eq_ok.mp hcode
      obtain ⟨others, hothers, hcode⟩ := bind_eq_ok.mp hcode
      cases hcode
      refine Laid.append ?_ (ih hrest hothers)
      split
      · exact laid_sequence hstmts hbody
      · exact LaidFrom.suite (by decide) (laid_sequence hstmts hbody)

private theorem laid_writeSwitch {cond : Node} {items : List (SwitchItem TracedCode)}
    (h : ∀ arms, (armsOf options.reduceParentheses items).result = .ok arms →
      ∀ arm ∈ arms, WritesLaid options P arm.body)
    (hcode : (writeSwitch options.reduceParentheses cond items).result = .ok code) : LaidFrom options P code := by
  obtain ⟨arms, harms, hcode⟩ := bind_eq_ok.mp hcode
  have hlaid := h arms harms
  split at hcode
  · cases hcode
    exact .nil
  · rename_i hsome
    split at hcode
    · obtain ⟨-, hchain⟩ := writeFallthrough_ok hcode
      refine laid_writeChain (fun entry hentry written hwritten => ?_) hchain
      obtain ⟨arm, harm, hbody⟩ := exists_arm_of_mem_entries hentry hwritten
      exact hlaid arm harm written hbody
    · exact laid_writeMatch (by simpa using hsome) hlaid hcode

/-! ### Branches and loops -/

theorem isSuiteHeader_branch (after : Bool) (test : String) :
    isSuiteHeader ((if after then "elif " else "if ") ++ test ++ ":").toList = true :=
  isSuiteHeader_append (by split <;> decide) test (by decide)

private theorem laid_writeIf {after : Bool} {cond : Node} {whenTrue : Traced (List Code)}
    {whenFalse : Bool → Traced (List Code)}
    (htrue : ∀ code, whenTrue.result = .ok code → LaidFrom options P code)
    (hfalse : ∀ after code, (whenFalse after).result = .ok code → LaidFrom options P code)
    (hcode : (writeIf options.reduceParentheses after cond whenTrue whenFalse).result = .ok code) :
    LaidFrom options P code := by
  unfold writeIf at hcode
  split at hcode
  · split at hcode
    · obtain ⟨body, hbody, hcode⟩ := bind_eq_ok.mp hcode
      cases hcode
      exact (htrue body hbody).elseCode after
    · exact hfalse after code hcode
  · obtain ⟨test, -, hcode⟩ := bind_eq_ok.mp hcode
    obtain ⟨body, hbody, hcode⟩ := bind_eq_ok.mp hcode
    obtain ⟨rest, hrest, hcode⟩ := bind_eq_ok.mp hcode
    cases hcode
    exact Laid.append (LaidFrom.suite (isSuiteHeader_branch after test) (htrue body hbody)) (hfalse true rest hrest)

/-- The steps of a test are steps of parts of it. -/
private theorem everywhere_splitOperand {node : Node} {split : SplitTest} (h : Everywhere P node)
    (hsplit : splitOperand node = .ok split) : ∀ step ∈ split.before ++ split.after, Everywhere P step.operand := by
  rcases splitOperand_ok hsplit with ⟨-, rfl⟩ | ⟨op, operand, rfl, -, rfl⟩
  · simp [SplitTest.pure]
  · intro step hstep
    have hstep : step = ⟨op, operand⟩ := by
      rw [SplitTest.ofStep] at hstep
      split at hstep <;> simpa using hstep
    rw [hstep]
    exact h.parts operand (by simp [Node.parts])

private theorem everywhere_splitTest {cond : Node} {split : SplitTest} (h : Everywhere P cond)
    (hsplit : splitTest cond = .ok split) : ∀ step ∈ split.before ++ split.after, Everywhere P step.operand := by
  rcases splitTest_ok hsplit with ⟨-, rfl⟩ | ⟨-, hoperand | ⟨op, left, right, l, r, rfl, -, hl, hr, rfl⟩⟩
  · simp [SplitTest.pure]
  · exact everywhere_splitOperand h hoperand
  · have hleft := everywhere_splitOperand (h.parts left (by simp [Node.parts])) hl
    have hright := everywhere_splitOperand (h.parts right (by simp [Node.parts])) hr
    intro step hstep
    simp only [SplitTest.binary, List.mem_append] at hstep hleft hright
    rcases hstep with (hstep | hstep) | (hstep | hstep)
    · exact hleft step (Or.inl hstep)
    · exact hright step (Or.inl hstep)
    · exact hleft step (Or.inr hstep)
    · exact hright step (Or.inr hstep)

private theorem laid_steps {steps : List Step} {lines : List Code} (h : ∀ step ∈ steps, Everywhere P step.operand)
    (hlines : (steps.mapM (writeStep options.reduceParentheses)).result = .ok lines) : LaidFrom options P lines := by
  refine Laid.of_forall fun line hline => ?_
  obtain ⟨step, hstep, hresult⟩ := exists_of_mapM_eq_ok hlines line hline
  exact laid_writeStep (h step hstep) hresult

private theorem laid_writeWhile {cond body : Node} {bodyCode : Traced (List Code)} (hcond : Everywhere P cond)
    (hbody : ∀ code, bodyCode.result = .ok code → LaidFrom options P code)
    (hcode : (writeWhile options.reduceParentheses cond body bodyCode).result = .ok code) :
    LaidFrom options P code := by
  simp only [writeWhile, bind_eq_ok, guard_eq_ok] at hcode
  obtain ⟨split, hsplit, -, -, before, hbefore, test, -, lines, hlines, after, hafter, hcode⟩ := hcode
  cases hcode
  have hsteps := everywhere_splitTest hcond hsplit
  have hfirst := laid_steps (fun step hstep => hsteps step (List.mem_append_left _ hstep)) hbefore
  have hlast := laid_steps (fun step hstep => hsteps step (List.mem_append_right _ hstep)) hafter
  exact Laid.append hfirst (LaidFrom.suite (isSuiteHeader_append (by decide) test (by decide))
    (Laid.append (hbody lines hlines) hlast))

private theorem laid_writeSteppedLoop {cond : Option Node} {bodyCode nextCode : Traced (List Code)}
    (hbody : ∀ code, bodyCode.result = .ok code → LaidFrom options P code)
    (hnext : ∀ code, nextCode.result = .ok code → LaidFrom options P code)
    (hcode : (writeSteppedLoop options.reduceParentheses cond bodyCode nextCode).result = .ok code) :
    LaidFrom options P code := by
  cases cond with
  | none =>
    obtain ⟨lines, hlines, hcode⟩ := bind_eq_ok.mp hcode
    obtain ⟨step, hstep, hcode⟩ := bind_eq_ok.mp hcode
    cases hcode
    exact LaidFrom.suite (by decide) (Laid.append (hbody lines hlines) (hnext step hstep))
  | some cond =>
    obtain ⟨test, -, hcode⟩ := bind_eq_ok.mp hcode
    obtain ⟨lines, hlines, hcode⟩ := bind_eq_ok.mp hcode
    obtain ⟨step, hstep, hcode⟩ := bind_eq_ok.mp hcode
    cases hcode
    have hsuite : LaidFrom options P (lines ++ step ++ [leaveUnless test]) :=
      Laid.append (Laid.append (hbody lines hlines) (hnext step hstep)) (.single (.leave test))
    exact Laid.suite (isSuiteHeader_append (by decide) test (by decide)) (by simp)
      (Laid.suite (by decide) (by simp) hsuite .nil) .nil

theorem isSuiteHeader_counting {reduce : Bool} {loop : Counting} {header : String}
    (h : (countingHeader reduce loop).result = .ok header) : isSuiteHeader header.toList = true := by
  obtain ⟨start, -, h⟩ := bind_eq_ok.mp h
  obtain ⟨bound, -, h⟩ := bind_eq_ok.mp h
  cases h
  have hcounter : opensSuite ("for " ++ escapeName loop.counter).toList = true := opensSuite_append (by decide) _
  have hstart : opensSuite ("for " ++ escapeName loop.counter ++ " in range(" ++ start).toList = true :=
    opensSuite_append (opensSuite_append hcounter _) _
  have hopens : opensSuite
      ("for " ++ escapeName loop.counter ++ " in range(" ++ start ++ ", " ++ bound).toList = true :=
    opensSuite_append (opensSuite_append hstart _) _
  rw [isSuiteHeader, opensSuite_append hopens, endsInColon_append]
  · rfl
  · cases loop.direction <;> decide

private theorem laid_writeFor {init cond next : Option Node} {body : Node}
    {initCode bodyCode nextCode : Traced (List Code)} (hcond : ∀ test ∈ cond, Everywhere P test)
    (hinit : ∀ code, initCode.result = .ok code → LaidFrom options P code)
    (hbody : ∀ code, bodyCode.result = .ok code → LaidFrom options P code)
    (hnext : ∀ code, nextCode.result = .ok code → LaidFrom options P code)
    (hcode : (writeFor options.reduceParentheses init cond next body initCode bodyCode nextCode).result = .ok code) :
    LaidFrom options P code := by
  rw [writeFor] at hcode
  generalize (do counting? (← init) (← cond) (← next) : Option Counting) = counting at hcode
  cases counting with
  | some loop =>
    obtain ⟨header, hheader, hcode⟩ := bind_eq_ok.mp hcode
    obtain ⟨lines, hlines, hcode⟩ := bind_eq_ok.mp hcode
    cases hcode
    exact LaidFrom.suite (isSuiteHeader_counting hheader) (hbody lines hlines)
  | none =>
    obtain ⟨-, hcode⟩ := guard_eq_ok.mp hcode
    obtain ⟨initLines, hlines, hcode⟩ := bind_eq_ok.mp hcode
    split at hcode
    · obtain ⟨loop, hloop, hcode⟩ := bind_eq_ok.mp hcode
      cases hcode
      exact Laid.append (hinit initLines hlines) (laid_writeWhile (hcond _ rfl) hbody hloop)
    · obtain ⟨loop, hloop, hcode⟩ := bind_eq_ok.mp hcode
      cases hcode
      exact Laid.append (hinit initLines hlines) (laid_writeSteppedLoop hbody hnext hloop)

private theorem laid_writeDo {cond body : Node} {bodyCode : Traced (List Code)}
    (hbody : ∀ code, bodyCode.result = .ok code → LaidFrom options P code)
    (hcode : (writeDo options.reduceParentheses cond body bodyCode).result = .ok code) : LaidFrom options P code := by
  simp only [writeDo, bind_eq_ok, guard_eq_ok] at hcode
  obtain ⟨-, test, -, lines, hlines, hcode⟩ := hcode
  cases hcode
  exact Laid.suite (by decide) (by simp) (Laid.append (hbody lines hlines) (.single (.leave test))) .nil

/-! ### Statements -/

/-- The code of the statement, wherever it stands, is laid out. -/
def WrittenLaid (options : UnitOptions) (P : Node → Prop) (stmt : Node) : Prop :=
  ∀ context after code, (writeStmt options context after stmt).result = .ok code → LaidFrom options P code

private theorem laid_writeStmts {stmts : List Node} (h : ∀ stmt ∈ stmts, WrittenLaid options P stmt)
    (hcode : (writeStmts options context stmts).result = .ok code) : LaidFrom options P code := by
  induction stmts generalizing code with
  | nil =>
    cases hcode
    exact .nil
  | cons stmt rest ih =>
    obtain ⟨first, hfirst, hcode⟩ := bind_eq_ok.mp hcode
    obtain ⟨others, hothers, hcode⟩ := bind_eq_ok.mp hcode
    cases hcode
    exact Laid.append (h stmt (List.mem_cons_self ..) context false first hfirst)
      (ih (fun other hother => h other (List.mem_cons_of_mem stmt hother)) hothers)

private theorem laid_else {after : Bool} {piece : Traced (List Code)}
    (hcode : (do return elseCode after (← piece) : Traced (List Code)).result = .ok code)
    (h : ∀ code, piece.result = .ok code → LaidFrom options P code) : LaidFrom options P code := by
  obtain ⟨body, hbody, hcode⟩ := bind_eq_ok.mp hcode
  cases hcode
  exact (h body hbody).elseCode after

private theorem laid_switch (cond body : Node) (h : Everywhere (WrittenLaid options P) body) :
    WrittenLaid options P (.switch cond body) := by
  intro context after code hcode
  have hlisted : ∀ node, Everywhere (WrittenLaid options P) node →
      ∀ part ∈ node.listed, Everywhere (WrittenLaid options P) part :=
    fun node hnode part hpart => hnode.parts part (mem_parts_of_listed hpart)
  have hitems : ∀ item ∈ switchItems body, Everywhere (WrittenLaid options P) item := by
    unfold switchItems
    split
    · exact h.parts
    · intro item hitem
      rw [List.mem_singleton.mp hitem]
      exact h
  rw [writeStmt_switch] at hcode
  refine laid_else hcode fun code hswitch => laid_writeSwitch (fun arms harms arm harm => ?_) hswitch
  obtain ⟨hparts, hvalid⟩ := armsOf_parts harms
  intro written hwritten code hresult
  have hstmt : .stmt written.stmt ∈ partsOf (switchItems body) := by
    rw [hparts, List.mem_flatMap]
    exact ⟨arm, harm, List.mem_append_right _ (List.mem_map_of_mem hwritten)⟩
  rw [(hvalid arm harm).code_eq written hwritten] at hresult
  exact (of_mem_partsOf hlisted hitems hstmt).self _ false code hresult

/-- The code of the statements of a tree is laid out. -/
theorem everywhere_writtenLaid {stmt : Node} (h : Everywhere P stmt) : Everywhere (WrittenLaid options P) stmt := by
  refine Everywhere.derive h fun stmt hstmt hparts => ?_
  have hlaid : ∀ part ∈ stmt.parts, WrittenLaid options P part := fun part hpart => (hparts part hpart).self
  intro context after code hcode
  unfold writeStmt at hcode
  split at hcode
  case h_1 cond whenTrue =>
    refine laid_writeIf (hlaid whenTrue (by simp [Node.parts]) context false) (fun _ code hresult => ?_) hcode
    cases hresult
    exact .nil
  case h_2 cond whenTrue whenFalse =>
    exact laid_writeIf (hlaid whenTrue (by simp [Node.parts]) context false)
      (hlaid whenFalse (by simp [Node.parts]) context) hcode
  case h_3 items => exact laid_else hcode fun code hresult => laid_writeStmts hlaid hresult
  case h_4 exprs => exact laid_else hcode fun code hresult => laid_writeStmts hlaid hresult
  case h_5 label stmt =>
    obtain ⟨body, hbody, hcode⟩ := bind_eq_ok.mp hcode
    cases hcode
    refine LaidFrom.elseCode after (Laid.line (.label hstmt.self) ?_)
    exact hlaid stmt (by simp [Node.parts]) context false body hbody
  case h_6 init cond next body =>
    refine laid_else hcode fun code hresult => laid_writeFor (fun test htest => ?_) (fun code hinit => ?_)
      (hlaid body (by simp [Node.parts]) context.enterLoop false) (fun code hnext => ?_) hresult
    · rw [Option.mem_def.mp htest] at hstmt
      exact hstmt.parts test (by simp [Node.parts])
    · cases init with
      | none =>
        cases hinit
        exact .nil
      | some init => exact hlaid init (by simp [Node.parts]) context false code hinit
    · cases next with
      | none =>
        cases hnext
        exact .nil
      | some next => exact hlaid next (by simp [Node.parts]) context false code hnext
  case h_7 cond body =>
    exact laid_else hcode fun code hresult => laid_writeWhile (hstmt.parts cond (by simp [Node.parts]))
      (hlaid body (by simp [Node.parts]) context.enterLoop false) hresult
  case h_8 cond body =>
    split at hcode
    · exact laid_else hcode (hlaid body (by simp [Node.parts]) context false)
    · exact laid_else hcode fun code hresult =>
        laid_writeDo (hlaid body (by simp [Node.parts]) context.enterLoop false) hresult
  case h_9 cond items =>
    exact laid_switch cond (.block items) (hparts _ (by simp [Node.parts])) context after code hcode
  case h_10 cond label stmts =>
    exact laid_switch cond (.caseLabel label stmts) (hparts _ (by simp [Node.parts])) context after code hcode
  case h_11 cond stmts =>
    exact laid_switch cond (.defaultLabel stmts) (hparts _ (by simp [Node.parts])) context after code hcode
  case h_12 cond body _ _ _ =>
    refine laid_else hcode fun code hresult => laid_writeSwitch (fun arms harms => ?_) hresult
    cases harms
  case h_13 => exact laid_else hcode fun code hresult => laid_writeSimple hstmt hresult

theorem laid_writeStmt {stmt : Node} {after : Bool} (h : Everywhere P stmt)
    (hcode : (writeStmt options context after stmt).result = .ok code) : LaidFrom options P code :=
  (everywhere_writtenLaid h).self context after code hcode

/-! ### Units -/

private theorem laid_writeParamDefinitions {args : Option Node} (h : ∀ params ∈ args, Everywhere P params)
    (hcode : (writeParamDefinitions options context args).result = .ok code) : LaidFrom options P code := by
  unfold writeParamDefinitions at hcode
  split at hcode
  · rename_i params
    have hparams := (h _ rfl).parts
    obtain ⟨inner, hinner, hcode⟩ := bind_eq_ok.mp hcode
    cases hcode
    refine Laid.flatten fun part hpart => ?_
    obtain ⟨param, hparam, hresult⟩ := exists_of_mapM_eq_ok hinner part hpart
    split at hresult
    · exact laid_writeInnerDefinitions ((hparams _ hparam).parts _ (List.mem_cons_self ..)) hresult
    · cases hresult
      exact .nil
  · cases hcode
    exact .nil

/-- The head of a function is the header of a suite. -/
theorem isSuiteHeader_signatureHead {name : String} {args : Option Node} {result : Node} {head : String}
    (h : (signatureHead options name args result).result = .ok head) : isSuiteHeader head.toList = true := by
  obtain ⟨params, -, h⟩ := bind_eq_ok.mp h
  have hending : ∃ ending,
      head = "def " ++ escapeName name ++ "(" ++ ", ".intercalate params ++ ")" ++ ending ++ ":" := by
    split at h <;> cases h <;> exact ⟨_, rfl⟩
  obtain ⟨ending, rfl⟩ := hending
  have hopens : opensSuite ("def " ++ escapeName name ++ "(").toList = true :=
    opensSuite_append (opensSuite_append (by decide) _) _
  rw [isSuiteHeader, endsInColon_append _ (by decide), Bool.and_true]
  exact opensSuite_append (opensSuite_append (opensSuite_append (opensSuite_append hopens _) _) _) _

/-- Ahead of a function stand types that are defined in its head, and blank lines. -/
private theorem writeSignature_ok {decl : Node} {ahead : List Code} {head : String} (h : Everywhere P decl)
    (hcode : (writeSignature options context decl).result = .ok (ahead, head)) :
    isSuiteHeader head.toList = true ∧ ∃ types, ahead = types ++ [.blank 2] ∧ LaidFrom options P types := by
  unfold writeSignature at hcode
  split at hcode
  · rename_i name quals storage args result init width
    have hfunction : Everywhere P (.functionType args result) := h.parts _ (by simp [Node.parts])
    obtain ⟨resultTypes, hresult, hcode⟩ := bind_eq_ok.mp hcode
    obtain ⟨paramTypes, hparam, hcode⟩ := bind_eq_ok.mp hcode
    obtain ⟨text, htext, hcode⟩ := bind_eq_ok.mp hcode
    cases hcode
    refine ⟨isSuiteHeader_signatureHead htext, resultTypes ++ paramTypes, rfl, Laid.append ?_ ?_⟩
    · exact laid_writeInnerDefinitions (hfunction.parts result (by simp [Node.parts])) hresult
    · refine laid_writeParamDefinitions (fun params hparams => hfunction.parts params ?_) hparam
      exact List.mem_cons_of_mem result (Option.mem_toList.mpr hparams)
  · cases hcode
  · cases hcode

theorem laid_writeExternal {item : Node} (h : Everywhere P item)
    (hcode : (writeExternal options context item).result = .ok code) : LaidFrom options P code := by
  unfold writeExternal at hcode
  split at hcode
  · rename_i decl params body
    obtain ⟨⟨ahead, head⟩, hhead, hcode⟩ := bind_eq_ok.mp hcode
    obtain ⟨lines, hlines, hcode⟩ := bind_eq_ok.mp hcode
    cases hcode
    obtain ⟨hheader, types, rfl, htypes⟩ := writeSignature_ok (h.parts decl (by simp [Node.parts])) hhead
    have hbody : LaidFrom options P lines := laid_writeStmt (h.parts body (by simp [Node.parts])) hlines
    rw [List.append_assoc]
    exact Laid.append htypes (Laid.blank 2 (by simp) (LaidFrom.suite hheader hbody))
  · exact laid_writeDecl h hcode
  · exact laid_writeTypedef h hcode
  · exact laid_writeStmt h hcode
  · exact laid_writeStmt h hcode
  · cases hcode

end StubGen.CUnit
