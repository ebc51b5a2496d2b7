import Mathlib.Logic.Function.Basic
import StubGen.Proofs.Jump.Code
import StubGen.Proofs.Loop.Header

/-!
# The numbers of enumerators

The members of an enumeration are written as assignments.  Run in order, these give each member the number that it has
in C: that of its own expression, one more than the member before it, or zero if it is the first.

* `Numbered` lists the numbers that the members have in C, and `Evaluation.run` runs assignments in the host.
* `Tracks` is what the writer knows of the last member: the name under which it was written, and a number only if it is
  the member's.  Every member keeps this up (`Tracks.step`), whether the next text is a number or `PREVIOUS + 1`.
* `run_iff_numbered` puts the members together: a run of the lines gives just the numbers in C.
-/

namespace StubGen.CUnit

open Host Traced

/-! ### Assignments of the host -/

/-- How the host evaluates texts where names stand for integers.  A text that the grammar reads has the value of the
expression. -/
structure Evaluation where
  evaluate : (String → Option Int) → String → Option Int
  meaning : (String → Option Int) → HostExpr → Option Int
  laws : ∀ names, IntegerMeaning (meaning names)
  meaning_name : ∀ names name, meaning names (.name name) = names name
  evaluate_read : ∀ names {text : String} {expr : HostExpr}, readExpr text = some expr →
    evaluate names text = meaning names expr

/-- The name and the text of an assignment. -/
def assignment? (line : String) : Option (String × String) :=
  match line.toList.dropWhile isWordChar with
  | ' ' :: '=' :: ' ' :: text => some (String.ofList (line.toList.takeWhile isWordChar), String.ofList text)
  | _ => none

/-- Runs assignments one after the other.  The result has the name and the value of each; there is none if a text has
no integer for a value. -/
def Evaluation.run (evaluation : Evaluation) (names : String → Option Int) : List String → Option (List (String × Int))
  | [] => some []
  | line :: rest => do
    let (name, text) ← assignment? line
    let value ← evaluation.evaluate names text
    return (name, value) :: (← run evaluation (Function.update names name (some value)) rest)

theorem assignment?_line {name : String} (h : IsIdentifier name) (text : String) :
    assignment? (name ++ " = " ++ text) = some (name, text) := by
  obtain ⟨c, rest, hname, hc, hrest⟩ := h
  have hword : ∀ d ∈ name.toList, isWordChar d = true := by
    rw [hname, List.forall_mem_cons]
    exact ⟨isWordChar_of_isWordStart hc, hrest⟩
  have hline : (name ++ " = " ++ text).toList = name.toList ++ ' ' :: '=' :: ' ' :: text.toList := by simp
  have hblank : isWordChar ' ' = false := by decide
  rw [assignment?, hline, List.dropWhile_append_of_pos hword, List.takeWhile_append_of_pos hword]
  simp [hblank]

theorem Evaluation.run_line {evaluation : Evaluation} {names : String → Option Int} {name text : String}
    {rest : List String} {numbers : List (String × Int)} (h : IsIdentifier name) :
    evaluation.run names ((name ++ " = " ++ text) :: rest) = some numbers ↔
      ∃ number others, evaluation.evaluate names text = some number ∧
        evaluation.run (Function.update names name (some number)) rest = some others ∧
        numbers = (name, number) :: others := by
  simp only [run, assignment?_line h, Option.bind_eq_bind, Option.bind_some, Option.bind_eq_some_iff, Option.pure_def,
    Option.some.injEq]
  constructor
  · rintro ⟨number, hnumber, others, hothers, rfl⟩
    exact ⟨number, others, hnumber, hothers, rfl⟩
  · rintro ⟨number, others, hnumber, hothers, rfl⟩
    exact ⟨number, hnumber, others, hothers, rfl⟩

/-! ### Numbers in C -/

section Numbers

variable (evaluation : Evaluation) (reduce : Bool)

/-- The value of an explicit expression.  An integer constant has the number that it denotes in C, and any other
expression the value of its text. -/
inductive IsValue (names : String → Option Int) : Node → Int → Prop
  | constant (type : String) {text : String} {n : Nat} : IsInteger text.toList n →
      IsValue names (.constant type text) n
  | expression {expr : Node} {text : String} {number : Int} : (renderExpr reduce expr).result = .ok text →
      evaluation.evaluate names text = some number → IsValue names expr number

/-- The number of a member, after a member with the number `previous`. -/
inductive HasNumber (names : String → Option Int) : Option Int → Option Node → Int → Prop
  | explicit (previous : Option Int) {expr : Node} {number : Int} : IsValue evaluation reduce names expr number →
      HasNumber names previous (some expr) number
  | first : HasNumber names none none 0
  | next (previous : Int) : HasNumber names (some previous) none (previous + 1)

/-- The members and the numbers that they have in C.  Expressions may use the members before them. -/
inductive Numbered : (String → Option Int) → Option Int → List Node → List (String × Int) → Prop
  | nil (names : String → Option Int) (previous : Option Int) : Numbered names previous [] []
  | cons {names : String → Option Int} {previous : Option Int} {name : String} {value : Option Node} {number : Int}
      {rest : List Node} {numbers : List (String × Int)} : HasNumber evaluation reduce names previous value number →
      Numbered (Function.update names (escapeName name) (some number)) (some number) rest numbers →
      Numbered names previous (.enumerator name value :: rest) ((escapeName name, number) :: numbers)

end Numbers

variable {evaluation : Evaluation} {reduce : Bool} {names : String → Option Int}

/-- The value of an expression is that of its text, also for integer constants. -/
theorem isValue_iff {expr : Node} {text : String} (htext : (renderExpr reduce expr).result = .ok text) {number : Int} :
    IsValue evaluation reduce names expr number ↔ evaluation.evaluate names text = some number := by
  constructor
  · intro h
    cases h with
    | constant type hinteger =>
      cases htext
      rw [evaluation.evaluate_read names (spells_literal type hinteger).readExpr]
      exact (evaluation.laws names).literal (hostInteger?_literalText type hinteger)
    | expression htext' hvalue =>
      rw [htext] at htext'
      cases htext'
      exact hvalue
  · exact IsValue.expression htext

/-! ### Members without a value -/

/-- After a member whose number the writer knows comes the next number, if that fits.  Else the text refers to the
member. -/
theorem nextEnumerated_cases (previous : Enumerated) :
    (∃ tracked : Int, previous.value = some tracked ∧
      nextEnumerated (some previous) = (toString (tracked + 1), some (tracked + 1))) ∨
    nextEnumerated (some previous) = (previous.name ++ " + 1", none) := by
  simp only [nextEnumerated]
  cases hnext : previous.value.bind fun value => int64? (value + 1) with
  | none => exact .inr rfl
  | some next =>
    obtain ⟨tracked, htracked, hfits⟩ := Option.bind_eq_some_iff.mp hnext
    obtain ⟨-, rfl⟩ := int64?_eq_some_iff.mp hfits
    exact .inl ⟨tracked, htracked, rfl⟩

/-- The text of a number has the number. -/
theorem Evaluation.evaluate_toString (evaluation : Evaluation) (names : String → Option Int) (n : Nat) :
    evaluation.evaluate names (toString n) = some (n : Int) := by
  have hread := (spells_literal "int" (isInteger_toString n)).readExpr
  rw [literalText_toString] at hread
  rw [evaluation.evaluate_read names hread]
  exact (evaluation.laws names).literal (hostInteger?_toString n)

/-- The text after a member has a number that is one more than the member's. -/
theorem evaluate_nextEnumerated {previous : Enumerated} {number : Int} (hname : IsIdentifier previous.name)
    (hkeyword : previous.name ∉ keywords) (hnumber : names previous.name = some number)
    (htracked : ∀ tracked, previous.value = some tracked → tracked = number ∧ 0 ≤ tracked) :
    evaluation.evaluate names (nextEnumerated (some previous)).1 = some (number + 1) := by
  rcases nextEnumerated_cases previous with ⟨tracked, hvalue, hnext⟩ | hnext
  · obtain ⟨rfl, hnonneg⟩ := htracked tracked hvalue
    obtain ⟨n, rfl⟩ := Int.eq_ofNat_of_zero_le hnonneg
    rw [hnext]
    exact evaluation.evaluate_toString names (n + 1)
  · have hone : IsInteger "1".toList 1 := isInteger_toString 1
    have hsum := spells_binary true (show binaryLevel? "+" = some .add from rfl) (spells_name hname hkeyword)
      (spells_literal "int" hone)
    rw [enclose, needsParens_atom, enclose, needsParens_atom] at hsum
    have htext : previous.name ++ " " ++ operatorText "+" ++ " " ++ literalText "int" "1" =
        previous.name ++ " + 1" := by
      have hplus : " " ++ operatorText "+" ++ " " ++ literalText "int" "1" = " + 1" := by decide
      rw [← hplus, ← String.append_assoc, ← String.append_assoc, ← String.append_assoc]
    have hread : readExpr (previous.name ++ " + 1") = _ := htext ▸ hsum.readExpr
    have hprevious : evaluation.meaning names (.name previous.name) = some number := by
      rw [evaluation.meaning_name, hnumber]
    have hliteral := (evaluation.laws names).literal (hostInteger?_literalText "int" hone)
    rw [hnext, evaluation.evaluate_read names hread]
    exact (evaluation.laws names).sum hprevious hliteral

/-! ### What the writer knows -/

/-- What the writer knows of the member before: the name under which its number can be read, and perhaps the number. -/
inductive Tracks (names : String → Option Int) : Option Enumerated → Option Int → Prop
  | start : Tracks names none none
  | member {previous : Enumerated} {number : Int} : IsIdentifier previous.name → previous.name ∉ keywords →
      names previous.name = some number →
      (∀ tracked, previous.value = some tracked → tracked = number ∧ 0 ≤ tracked) →
      Tracks names (some previous) (some number)

variable {previous : Option Enumerated} {before : Option Int}

theorem Tracks.evaluate_next (h : Tracks names previous before) (number : Int) :
    evaluation.evaluate names (nextEnumerated previous).1 = some number ↔
      HasNumber evaluation reduce names before none number := by
  cases h with
  | start =>
    have hzero : evaluation.evaluate names "0" = some 0 := evaluation.evaluate_toString names 0
    rw [nextEnumerated, hzero]
    constructor
    · rintro ⟨⟩
      exact .first
    · rintro ⟨⟩
      rfl
  | @member previous last hname hkeyword hlast htracked =>
    rw [evaluate_nextEnumerated hname hkeyword hlast htracked]
    constructor
    · rintro ⟨⟩
      exact .next last
    · rintro ⟨⟩
      rfl

theorem Tracks.next_tracked (h : Tracks names previous before) {number tracked : Int}
    (hnumber : HasNumber evaluation reduce names before none number)
    (htracked : (nextEnumerated previous).2 = some tracked) : tracked = number ∧ 0 ≤ tracked := by
  cases h with
  | start =>
    cases hnumber
    cases htracked
    exact ⟨rfl, Int.le_refl 0⟩
  | @member previous last _ _ _ hlast =>
    cases hnumber
    rcases nextEnumerated_cases previous with ⟨known, hknown, hnext⟩ | hnext
    · rw [hnext] at htracked
      cases htracked
      obtain ⟨rfl, hnonneg⟩ := hlast known hknown
      exact ⟨rfl, by omega⟩
    · rw [hnext] at htracked
      cases htracked

/-- What the writer knows of an explicit value is the value. -/
theorem IsValue.tracked {expr : Node} {number tracked : Int} (h : IsValue evaluation reduce names expr number)
    (hgenuine : expr.IsGenuine) (htracked : expr.intValue? = some tracked) : tracked = number ∧ 0 ≤ tracked := by
  obtain ⟨type, text, n, rfl, -, hinteger, rfl⟩ := exists_of_isGenuine hgenuine htracked
  have htext : (renderExpr reduce (.constant type text)).result = .ok (literalText type text) := rfl
  have hconstant : evaluation.evaluate names (literalText type text) = some (n : Int) :=
    (isValue_iff htext).mp (.constant type hinteger)
  rw [(isValue_iff htext).mp h] at hconstant
  exact ⟨(Option.some.inj hconstant).symm, Int.natCast_nonneg n⟩

/-- The text of a member has the member's number, and then the writer knows of this member what it has to. -/
theorem Tracks.step (evaluation : Evaluation) (h : Tracks names previous before) {name : String}
    {value : Option Node} {text : String} {tracked : Option Int} (hname : IsIdentifier name)
    (hgenuine : ∀ expr, value = some expr → expr.IsGenuine)
    (htext : value = none ∧ (text, tracked) = nextEnumerated previous ∨
      ∃ expr, value = some expr ∧ (renderExpr reduce expr).result = .ok text ∧ tracked = expr.intValue?) :
    (∀ number, evaluation.evaluate names text = some number ↔ HasNumber evaluation reduce names before value number) ∧
    ∀ number, HasNumber evaluation reduce names before value number →
      Tracks (Function.update names (escapeName name) (some number)) (some ⟨escapeName name, tracked⟩)
        (some number) := by
  -- the name is bound to the number in both cases, so only what is known of it depends on the text
  have hwritten : (∀ known number, HasNumber evaluation reduce names before value number → tracked = some known →
      known = number ∧ 0 ≤ known) → ∀ number, HasNumber evaluation reduce names before value number →
      Tracks (Function.update names (escapeName name) (some number)) (some ⟨escapeName name, tracked⟩)
        (some number) := by
    intro hknown number hnumber
    exact .member (isIdentifier_escapeName hname) (escapeName_notMem name) (Function.update_self ..)
      fun known => hknown known number hnumber
  rcases htext with ⟨rfl, hnext⟩ | ⟨expr, rfl, hexpr, rfl⟩
  · obtain ⟨rfl, rfl⟩ := Prod.mk.inj hnext
    exact ⟨fun number => h.evaluate_next number,
      hwritten fun known number hnumber hknown => h.next_tracked hnumber hknown⟩
  · refine ⟨fun number => ?_, hwritten fun known number hnumber hknown => ?_⟩
    · rw [← isValue_iff hexpr]
      constructor
      · exact HasNumber.explicit before
      · rintro ⟨⟩
        assumption
    · cases hnumber
      exact IsValue.tracked ‹_› (hgenuine expr rfl) hknown

/-! ### All members -/

/-- The code has a line for each member. -/
theorem exists_lines_of_writeEnumerators {enumerators : List Node} {code : List Code}
    (h : (writeEnumerators reduce previous enumerators).result = .ok code) :
    ∃ lines : List String, code = lines.map Code.line ∧ lines.length = enumerators.length := by
  induction enumerators generalizing previous code with
  | nil =>
    cases h
    exact ⟨[], rfl, rfl⟩
  | cons enumerator rest ih =>
    obtain ⟨name, value, text, number, others, -, -, hothers, rfl⟩ := writeEnumerators_cons_ok h
    obtain ⟨lines, rfl, hlength⟩ := ih hothers
    exact ⟨(escapeName name ++ " = " ++ text) :: lines, rfl, by simp [hlength]⟩

/-- A member without a value that comes after another has a number for its text, or refers to that one. -/
theorem exists_text_of_writeEnumerators {enumerators : List Node} {lines : List String}
    (h : (writeEnumerators reduce previous enumerators).result = .ok (lines.map Code.line)) {index : Nat}
    {name next : String} {value : Option Node} (hname : enumerators[index]? = some (.enumerator name value))
    (hnext : enumerators[index + 1]? = some (.enumerator next none)) :
    ∃ text, lines[index + 1]? = some (escapeName next ++ " = " ++ text) ∧
      ((∃ number : Int, text = toString number) ∨ text = escapeName name ++ " + 1") := by
  induction enumerators generalizing previous lines index with
  | nil => cases hname
  | cons enumerator rest ih =>
    obtain ⟨first, _, _, known, others, rfl, -, hothers, hlines⟩ := writeEnumerators_cons_ok h
    obtain ⟨line, lines, rfl, -, rfl⟩ := List.map_eq_cons_iff.mp hlines
    cases index with
    | succ index => exact ih hothers hname hnext
    | zero =>
      cases hname
      obtain ⟨second, more, rfl⟩ := List.exists_cons_of_ne_nil (l := rest) (by rintro rfl; cases hnext)
      cases hnext
      obtain ⟨_, _, text, _, _, heq, htext, -, hlines⟩ := writeEnumerators_cons_ok hothers
      cases heq
      obtain ⟨_, _, rfl, hline, -⟩ := List.map_eq_cons_iff.mp hlines
      cases hline
      refine ⟨text, rfl, ?_⟩
      rcases htext with ⟨-, htext⟩ | ⟨_, hnone, -⟩
      · rcases nextEnumerated_cases ⟨escapeName name, known⟩ with ⟨tracked, -, hcase⟩ | hcase
        · rw [hcase] at htext
          exact .inl ⟨tracked + 1, congrArg Prod.fst htext⟩
        · rw [hcase] at htext
          exact .inr (congrArg Prod.fst htext)
      · cases hnone

/-- From a member on, a run gives the numbers that the members have in C. -/
theorem run_iff_of_writeEnumerators {enumerators : List Node} {lines : List String} (h : Tracks names previous before)
    (hnames : ∀ name value, .enumerator name value ∈ enumerators → IsIdentifier name)
    (hgenuine : ∀ name value, .enumerator name (some value) ∈ enumerators → value.IsGenuine)
    (hlines : (writeEnumerators reduce previous enumerators).result = .ok (lines.map Code.line))
    (numbers : List (String × Int)) :
    evaluation.run names lines = some numbers ↔ Numbered evaluation reduce names before enumerators numbers := by
  induction enumerators generalizing previous before names lines numbers with
  | nil =>
    obtain rfl : lines = [] := List.map_eq_nil_iff.mp (Except.ok.inj hlines).symm
    constructor
    · rintro ⟨⟩
      exact .nil names before
    · rintro ⟨⟩
      rfl
  | cons enumerator rest ih =>
    obtain ⟨name, value, text, tracked, others, rfl, htext, hothers, hline⟩ := writeEnumerators_cons_ok hlines
    obtain ⟨line, lines, rfl, hline, rfl⟩ := List.map_eq_cons_iff.mp hline
    cases hline
    have hname : IsIdentifier name := hnames name value (List.mem_cons_self ..)
    have hrest := fun {number : Int} (htracks : Tracks (Function.update names (escapeName name) (some number))
        (some ⟨escapeName name, tracked⟩) (some number)) =>
      ih htracks (fun name value hmem => hnames name value (List.mem_cons_of_mem _ hmem))
        (fun name value hmem => hgenuine name value (List.mem_cons_of_mem _ hmem)) hothers
    obtain ⟨hvalue, htracks⟩ := h.step evaluation hname
      (fun expr hexpr => hgenuine name expr (hexpr ▸ List.mem_cons_self ..)) htext
    rw [Evaluation.run_line (isIdentifier_escapeName hname)]
    constructor
    · rintro ⟨number, numbers, hnumber, hrun, rfl⟩
      have hhas := (hvalue number).mp hnumber
      exact .cons hhas ((hrest (htracks number hhas) numbers).mp hrun)
    · intro hnumbered
      cases hnumbered with
      | cons hhas hnumbered =>
        exact ⟨_, _, (hvalue _).mpr hhas, (hrest (htracks _ hhas) _).mpr hnumbered, rfl⟩

/-- The code of an enumeration whose members have the lines. -/
def enumerationCode (context : Context) (tag : Option String) (lines : List String) : List Code :=
  match tag with
  | some tag => classCode context ("class " ++ escapeName tag ++ "(IntEnum):") (lines.map .line)
  | none => lines.map .line

private theorem exists_lines_of_writeEnum {context : Context} {tag : Option String} {values : Node} {code : List Code}
    (h : (writeEnum reduce context tag values).result = .ok code) :
    ∃ enumerators lines, values = .enumeratorList enumerators ∧ code = enumerationCode context tag lines ∧
      lines.length = enumerators.length ∧
      (writeEnumerators reduce none enumerators).result = .ok (lines.map Code.line) := by
  unfold writeEnum at h
  split at h
  · next enumerators =>
    split at h
    · next tag =>
      obtain ⟨_, -, h⟩ := bind_eq_ok.mp h
      obtain ⟨body, hbody, h⟩ := bind_eq_ok.mp h
      obtain ⟨lines, rfl, hlength⟩ := exists_lines_of_writeEnumerators hbody
      cases h
      exact ⟨enumerators, lines, rfl, rfl, hlength, hbody⟩
    · obtain ⟨lines, rfl, hlength⟩ := exists_lines_of_writeEnumerators h
      exact ⟨enumerators, lines, rfl, rfl, hlength, h⟩
  · cases h

/-- The code of an enumeration is a line for each member.  Run in order, the lines give the members the numbers that
they have in C, and there are no such numbers if a line has none.  A member without a value, if it is not the first,
has a number for its text or refers to the member right before it. -/
theorem run_iff_numbered (reduce : Bool) (context : Context) (tag : Option String) {values : Node} {code : List Code}
    (hcode : (writeEnum reduce context tag values).result = .ok code)
    (hnames : ∀ name value, .enumerator name value ∈ values.parts → IsIdentifier name)
    (hgenuine : ∀ name value, .enumerator name (some value) ∈ values.parts → value.IsGenuine) :
    ∃ enumerators lines, values = .enumeratorList enumerators ∧ code = enumerationCode context tag lines ∧
      lines.length = enumerators.length ∧
      (∀ (evaluation : Evaluation) (names : String → Option Int) (numbers : List (String × Int)),
        evaluation.run names lines = some numbers ↔ Numbered evaluation reduce names none enumerators numbers) ∧
      ∀ (index : Nat) (name next : String) (value : Option Node),
        enumerators[index]? = some (.enumerator name value) →
        enumerators[index + 1]? = some (.enumerator next none) →
        ∃ text, lines[index + 1]? = some (escapeName next ++ " = " ++ text) ∧
          ((∃ number : Int, text = toString number) ∨ text = escapeName name ++ " + 1") := by
  obtain ⟨enumerators, lines, rfl, rfl, hlength, hlines⟩ := exists_lines_of_writeEnum hcode
  refine ⟨enumerators, lines, rfl, rfl, hlength, fun evaluation names numbers => ?_,
    fun index name next value => exists_text_of_writeEnumerators hlines⟩
  exact run_iff_of_writeEnumerators .start hnames hgenuine hlines numbers

/-- Sums, differences and negations of integers, where some names stand for integers. -/
def integerValue (names : String → Option Int) : HostExpr → Option Int
  | .name name => names name
  | .literal text => (hostInteger? text.toList).map Nat.cast
  | .unary op operand => if op = "-" then (integerValue names operand).map (-·) else none
  | .binary op left right =>
    if op = "+" then return (← integerValue names left) + (← integerValue names right)
    else if op = "-" then return (← integerValue names left) - (← integerValue names right)
    else none
  | _ => none
termination_by structural expr => expr

def integerEvaluation : Evaluation where
  evaluate names text := (readExpr text).bind (integerValue names)
  meaning := integerValue
  laws names := {
    literal h := by simp [integerValue, h]
    negation h := by simp [integerValue, h]
    sum hl hr := by simp [integerValue, hl, hr]
    difference hl hr := by simp [integerValue, hl, hr] }
  meaning_name names name := by rw [integerValue]
  evaluate_read _ _ _ h := by rw [h, Option.bind_some]

/-- `{ big = 0x7fffffffffffffffLL, lambda, mode = 0755u, next, low = -lambda, last }`. -/
def wideEnumerators : List Node := [
  .enumerator "big" (some (.constant "long long int" "0x7fffffffffffffffLL")), .enumerator "lambda" none,
  .enumerator "mode" (some (.constant "unsigned int" "0755u")), .enumerator "next" none,
  .enumerator "low" (some (.unary "-" (.ident "lambda"))), .enumerator "last" none]

def wideLines : List String := ["big = 0x7fffffffffffffff", "lambda_ = big + 1", "mode = 0o755", "next = 494",
  "low = -lambda_", "last = low + 1"]

theorem run_wideEnumerators :
    (writeEnum true .outermost none (.enumeratorList wideEnumerators)).result = .ok (wideLines.map .line) ∧
    integerEvaluation.run (fun _ => none) wideLines = some [("big", 9223372036854775807),
      ("lambda_", 9223372036854775808), ("mode", 493), ("next", 494), ("low", -9223372036854775808),
      ("last", -9223372036854775807)] := by
  have hcode : (writeEnum true .outermost none (.enumeratorList wideEnumerators)).result =
      .ok (wideLines.map .line) := rfl
  have hbig : IsInteger "0x7fffffffffffffffLL".toList 9223372036854775807 :=
    ⟨"0x7fffffffffffffff".toList, "LL".toList, by decide,
      .hexadecimal (by decide) (by decide) (by decide +kernel), .inr (by decide)⟩
  have hmode : IsInteger "0755u".toList 493 :=
    ⟨"0755".toList, "u".toList, by decide, .octal (by decide), .inr (by decide)⟩
  have hnames : ∀ name value, .enumerator name value ∈ wideEnumerators → IsIdentifier name := by
    simp only [wideEnumerators, List.mem_cons, List.not_mem_nil, or_false, Node.enumerator.injEq]
    rintro name value (⟨rfl, -⟩ | ⟨rfl, -⟩ | ⟨rfl, -⟩ | ⟨rfl, -⟩ | ⟨rfl, -⟩ | ⟨rfl, -⟩) <;>
      exact ⟨_, _, rfl, by decide, List.all_eq_true.mp (by decide)⟩
  have hgenuine : ∀ name value, .enumerator name (some value) ∈ wideEnumerators → value.IsGenuine := by
    simp only [wideEnumerators, List.mem_cons, List.not_mem_nil, or_false, Node.enumerator.injEq,
      Option.some.injEq, reduceCtorEq, and_false, false_or]
    rintro name value (⟨-, rfl⟩ | ⟨-, rfl⟩ | ⟨-, rfl⟩)
    · exact isGenuine_constant _ hbig
    · exact isGenuine_constant _ hmode
    · rintro _ _ ⟨⟩
  obtain ⟨enumerators, lines, hvalues, hlines, -, hrun, -⟩ :=
    run_iff_numbered true .outermost none hcode hnames hgenuine
  cases hvalues
  obtain rfl : wideLines = lines := List.map_injective_iff.mpr (fun _ _ => Code.line.inj) hlines
  have hnegation : ∀ names : String → Option Int, names "lambda_" = some 9223372036854775808 →
      integerEvaluation.evaluate names "-lambda_" = some (-9223372036854775808) := by
    intro names hname
    have hlambda : IsIdentifier "lambda_" := ⟨_, _, rfl, by decide, List.all_eq_true.mp (by decide)⟩
    have hminus : "-" ∈ ["-", "+", "~"] := by decide
    have hread : readExpr "-lambda_" = _ := (spells_sign true hminus (spells_name hlambda (by decide))).readExpr
    rw [integerEvaluation.evaluate_read names hread]
    exact (integerEvaluation.laws names).negation hname
  have hnumbered : Numbered integerEvaluation true (fun _ => none) none wideEnumerators
      [(escapeName "big", 9223372036854775807), (escapeName "lambda", 9223372036854775808), (escapeName "mode", 493),
        (escapeName "next", 494), (escapeName "low", -9223372036854775808),
        (escapeName "last", -9223372036854775807)] :=
    .cons (.explicit none (.constant "long long int" hbig)) <| .cons (.next _) <|
      .cons (.explicit _ (.constant "unsigned int" hmode)) <| .cons (.next _) <|
      .cons (.explicit _ (.expression rfl (hnegation _ rfl))) <| .cons (.next _) <| .nil _ _
  exact ⟨hcode, (hrun integerEvaluation _ _).mpr hnumbered⟩

end StubGen.CUnit
