import StubGen.Layout.Code

/-!
# The shape of code

Code is `Laid` if its lines are all of one kind, each of its suites has a header and something in it, and blank lines
stand before something.  A suite of such code is never without a line that is not blank.

* `Laid.append` puts code together, and `Laid.suite` nests it.
-/

namespace StubGen

/-- The words that start the header of a suite, each with what separates it from the rest of the header. -/
def headerWords : List String := ["def ", "class ", "if ", "elif ", "else:", "for ", "while ", "match ", "case "]

/-- Whether the text starts as the header of a suite does. -/
def opensSuite (text : List Char) : Bool := headerWords.any (·.toList.isPrefixOf text)

def endsInColon (text : List Char) : Bool := text.getLast? = some ':'

/-- Whether a text is the header of a suite. -/
def isSuiteHeader (text : List Char) : Bool := opensSuite text && endsInColon text

theorem opensSuite_append {first : String} (h : opensSuite first.toList = true) (second : String) :
    opensSuite (first ++ second).toList = true := by
  rw [opensSuite, List.any_eq_true] at h
  obtain ⟨word, hword, hstart⟩ := h
  rw [List.isPrefixOf_iff_prefix] at hstart
  rw [opensSuite, List.any_eq_true, String.toList_append]
  exact ⟨word, hword, List.isPrefixOf_iff_prefix.mpr (hstart.trans (List.prefix_append ..))⟩

theorem endsInColon_append (first : String) {second : String} (h : endsInColon second.toList = true) :
    endsInColon (first ++ second).toList = true := by
  rw [endsInColon, decide_eq_true_eq] at h
  rw [endsInColon, decide_eq_true_eq, String.toList_append, List.getLast?_append, h]
  rfl

theorem isSuiteHeader_append {first last : String} (hfirst : opensSuite first.toList = true) (text : String)
    (hlast : endsInColon last.toList = true) : isSuiteHeader (first ++ text ++ last).toList = true := by
  rw [isSuiteHeader, endsInColon_append _ hlast, opensSuite_append (opensSuite_append hfirst text)]
  rfl

/-- Code whose lines are of the kind `Line`.  A suite has a header and is not empty, and no blank line comes last. -/
inductive Laid (Line : String → Prop) : List Code → Prop
  | nil : Laid Line []
  | line {text : String} {rest : List Code} : Line text → Laid Line rest → Laid Line (.line text :: rest)
  | blank (count : Nat) {rest : List Code} : rest ≠ [] → Laid Line rest → Laid Line (.blank count :: rest)
  | suite {header : String} {body rest : List Code} : isSuiteHeader header.toList = true → body ≠ [] →
      Laid Line body → Laid Line rest → Laid Line (.suite header body :: rest)

namespace Laid

variable {Line More : String → Prop} {first second : List Code}

theorem mono (h : Laid Line first) (hmore : ∀ text, Line text → More text) : Laid More first := by
  induction h with
  | nil => exact nil
  | line hline _ ih => exact line (hmore _ hline) ih
  | blank count hne _ ih => exact blank count hne ih
  | suite hheader hne _ _ ihbody ih => exact suite hheader hne ihbody ih

theorem append (hfirst : Laid Line first) (hsecond : Laid Line second) : Laid Line (first ++ second) := by
  induction hfirst with
  | nil => exact hsecond
  | line hline _ ih => exact line hline ih
  | blank count hne _ ih => exact blank count (by simp [hne]) ih
  | suite hheader hne hbody _ _ ih => exact suite hheader hne hbody ih

theorem flatten {parts : List (List Code)} (h : ∀ part ∈ parts, Laid Line part) : Laid Line parts.flatten := by
  induction parts with
  | nil => exact nil
  | cons part rest ih =>
    exact append (h part (List.mem_cons_self ..)) (ih fun other hother => h other (List.mem_cons_of_mem part hother))

theorem of_forall {codes : List Code} (h : ∀ code ∈ codes, Laid Line [code]) : Laid Line codes := by
  induction codes with
  | nil => exact nil
  | cons code rest ih =>
    exact append (h code (List.mem_cons_self ..)) (ih fun other hother => h other (List.mem_cons_of_mem code hother))

theorem single {text : String} (h : Line text) : Laid Line [.line text] := line h nil

theorem orPass (hpass : Line "pass") (h : Laid Line first) : Laid Line (Code.orPass first) := by
  unfold Code.orPass
  split
  · exact single hpass
  · exact h

/-- A suite around code, where `pass` stands for nothing. -/
theorem suiteOrPass {header : String} (hheader : isSuiteHeader header.toList = true) (hpass : Line "pass")
    (h : Laid Line first) : Laid Line [.suite header (Code.orPass first)] :=
  suite hheader (Code.orPass_ne_nil first) (h.orPass hpass) nil

end Laid

end StubGen
