import StubGen.CUnit.Statement
import StubGen.Proofs.Jump.Text

/-!
# Jumps in code

`JumpsWithin allowed` holds of code whose jumps outside of its own loops are among `allowed`.  It is a matter of the
parts of the code, so each writer has it if the code that it puts together has it.

* Lines that hold a text over tokens, comments and headers are no jumps.
* Declarations and simple statements have only the jumps that they are (`jumpsWithin_writeSimple`).
-/

namespace StubGen.CUnit

open Traced

/-- The jumps of the code that are in no loop suite of it are among those allowed. -/
def JumpsWithin (allowed : Jumps) (codes : List Code) : Prop :=
  ∀ text ∈ Code.allLoose codes,
    (IsJump "break" text → allowed.breaks = true) ∧ (IsJump "continue" text → allowed.continues = true)

/-- The jumps that a statement may leave in its code: those bound to the loop or switch around it, without the ones
that the context leaves out. -/
def jumpsOf (context : Context) (stmt : Node) : Jumps :=
  ⟨containsJump .onlyBreak stmt && !context.skip.breaks, containsJump .onlyContinue stmt⟩

namespace JumpsWithin

variable {allowed : Jumps} {code : Code} {first second : List Code}

theorem nil : JumpsWithin allowed [] := by
  intro text htext
  cases htext

theorem append (hfirst : JumpsWithin allowed first) (hsecond : JumpsWithin allowed second) :
    JumpsWithin allowed (first ++ second) := by
  intro text htext
  rw [Code.allLoose_append, List.mem_append] at htext
  exact htext.elim (hfirst text) (hsecond text)

theorem cons (hcode : JumpsWithin allowed [code]) (hrest : JumpsWithin allowed first) :
    JumpsWithin allowed (code :: first) := hcode.append hrest

theorem of_forall {codes : List Code} (h : ∀ code ∈ codes, JumpsWithin allowed [code]) : JumpsWithin allowed codes := by
  induction codes with
  | nil => exact nil
  | cons code rest ih =>
    exact cons (h code (List.mem_cons_self ..)) (ih fun other hother => h other (List.mem_cons_of_mem code hother))

theorem flatten {parts : List (List Code)} (h : ∀ part ∈ parts, JumpsWithin allowed part) :
    JumpsWithin allowed parts.flatten := by
  induction parts with
  | nil => exact nil
  | cons part rest ih =>
    exact append (h part (List.mem_cons_self ..)) (ih fun other hother => h other (List.mem_cons_of_mem part hother))

theorem mono {more : Jumps} (h : JumpsWithin allowed first) (hbreaks : allowed.breaks = true → more.breaks = true)
    (hcontinues : allowed.continues = true → more.continues = true) : JumpsWithin more first :=
  fun text htext => ⟨fun hjump => hbreaks ((h text htext).1 hjump), fun hjump => hcontinues ((h text htext).2 hjump)⟩

theorem line {text : String} (h : JumpFree text) : JumpsWithin allowed [.line text] := by
  intro other hother
  obtain rfl : other = text := List.mem_singleton.mp hother
  exact ⟨fun hjump => absurd hjump (h.not_isJump (by decide)), fun hjump => absurd hjump (h.not_isJump (by decide))⟩

theorem comment {text : String} (h : text.toList.head? = some '#') : JumpsWithin allowed [.line text] := by
  intro other hother
  obtain rfl : other = text := List.mem_singleton.mp hother
  have hbare : (bareText other).head? = some '#' := by
    obtain ⟨rest, hrest⟩ := List.head?_eq_some_iff.mp h
    rw [bareText, hrest]
    rfl
  exact ⟨fun hjump => absurd hbare hjump.1, fun hjump => absurd hbare hjump.1⟩

theorem blank (count : Nat) : JumpsWithin allowed [.blank count] := by
  intro text htext
  cases htext

/-- The suite of a loop keeps its jumps, and the suite of anything else does not. -/
theorem suite {header : String} (hheader : endsPlain header = true)
    (h : isLoopHeader header.toList = false → JumpsWithin allowed first) :
    JumpsWithin allowed [.suite header first] := by
  intro text htext
  simp only [Code.allLoose, Code.loose, List.append_nil, List.mem_cons] at htext
  rcases htext with rfl | htext
  · exact line (jumpFree_of_endsPlain hheader) text (List.mem_singleton_self text)
  · split at htext
    · cases htext
    · rename_i hloop
      exact h (Bool.eq_false_iff.mpr hloop) text htext

theorem orPass (h : JumpsWithin allowed first) : JumpsWithin allowed (Code.orPass first) := by
  unfold Code.orPass
  split
  · exact line (jumpFree_of_chars (by decide) (by decide))
  · exact h

theorem elseCode (after : Bool) (h : JumpsWithin allowed first) : JumpsWithin allowed (elseCode after first) := by
  unfold CUnit.elseCode
  split
  · exact suite (by decide) fun _ => h.orPass
  · exact h

private theorem last_of_isJump {word text : String} (h : IsJump word text) (c : Char)
    (hword : word.toList.getLast? = some c) : (bareText text).getLast? = some c := by
  obtain ⟨-, before, heq, -⟩ := h
  rw [heq, List.getLast?_append, hword]
  rfl

theorem breakLine (h : allowed.breaks = true) : JumpsWithin allowed [.line "break"] := by
  intro text htext
  obtain rfl : text = "break" := List.mem_singleton.mp htext
  refine ⟨fun _ => h, fun hjump => ?_⟩
  have hlast := last_of_isJump hjump 'e' (by decide)
  exact absurd hlast (by decide)

theorem continueLine (h : allowed.continues = true) : JumpsWithin allowed [.line "continue"] := by
  intro text htext
  obtain rfl : text = "continue" := List.mem_singleton.mp htext
  refine ⟨fun hjump => ?_, fun _ => h⟩
  have hlast := last_of_isJump hjump 'k' (by decide)
  exact absurd hlast (by decide)

end JumpsWithin

/-! ### Declarations -/

variable {options : UnitOptions} {context : Context} {allowed : Jumps} {code : List Code}

private theorem jumpFree_assigned {target text : String} (h : JumpFree text) : JumpFree (target ++ " = " ++ text) :=
  JumpFree.behind _ (by decide) (by decide) h

private theorem jumpFree_repr (n : Nat) : JumpFree n.repr := by
  have hdigit := isDigit_repr n
  have hseparator : ∀ c ∈ [' ', ':', ';'], c.isDigit = false := List.all_iff_forall_prop.mp (by decide)
  have hjump : ∀ word ∈ ["break", "continue"], word.toList.all Char.isDigit = false := by decide
  refine jumpFree_of_chars (List.all_iff_forall_prop.mpr fun c hc hsep => ?_) fun hword => ?_
  · have := hdigit c hc
    rw [hseparator c hsep] at this
    cases this
  · have hletters := hjump _ hword
    rw [List.all_eq_true.mpr hdigit] at hletters
    cases hletters

private theorem jumpFree_toString (value : Int) : JumpFree (toString value) := by
  cases value with
  | ofNat n => exact jumpFree_repr n
  | negSucc n => exact JumpFree.append (by decide) (jumpFree_repr (n + 1))

private theorem jumpFree_nextEnumerated (previous : Option Enumerated) : JumpFree (nextEnumerated previous).1 := by
  unfold nextEnumerated
  split
  · exact jumpFree_of_endsPlain (by decide)
  · split
    · exact jumpFree_toString _
    · exact jumpFree_closed _ (by decide) (by decide)

/-- An enumerator is a line with its own value, or with the next one. -/
theorem writeEnumerators_cons_ok {reduce : Bool} {previous : Option Enumerated} {enumerator : Node} {rest : List Node}
    (h : (writeEnumerators reduce previous (enumerator :: rest)).result = .ok code) :
    ∃ name value text number others, enumerator = .enumerator name value ∧
      (value = none ∧ (text, number) = nextEnumerated previous ∨
        ∃ expr, value = some expr ∧ (renderExpr reduce expr).result = .ok text ∧ number = expr.intValue?) ∧
      (writeEnumerators reduce (some ⟨escapeName name, number⟩) rest).result = .ok others ∧
      code = .line (escapeName name ++ " = " ++ text) :: others := by
  rw [writeEnumerators.eq_def] at h
  split at h
  · cases ‹enumerator :: rest = []›
  · rename_i name value others heq
    cases heq
    cases value with
    | none =>
      obtain ⟨_, hnext, h⟩ := bind_eq_ok.mp h
      obtain ⟨others, hothers, h⟩ := bind_eq_ok.mp h
      cases hnext
      cases h
      exact ⟨name, none, _, _, others, rfl, Or.inl ⟨rfl, rfl⟩, hothers, rfl⟩
    | some expr =>
      obtain ⟨text, htext, h⟩ := bind_eq_ok.mp h
      obtain ⟨_, hvalue, h⟩ := bind_eq_ok.mp h
      cases hvalue
      obtain ⟨others, hothers, h⟩ := bind_eq_ok.mp h
      cases h
      exact ⟨name, some expr, _, _, others, rfl, Or.inr ⟨expr, rfl, htext, rfl⟩, hothers, rfl⟩
  · cases h

private theorem jumpsWithin_writeEnumerators {reduce : Bool} {previous : Option Enumerated} {enumerators : List Node}
    (h : ∀ enumerator ∈ enumerators, OverTokens enumerator)
    (hcode : (writeEnumerators reduce previous enumerators).result = .ok code) : JumpsWithin allowed code := by
  induction enumerators generalizing previous code with
  | nil =>
    cases hcode
    exact .nil
  | cons enumerator rest ih =>
    obtain ⟨henumerator, hrest⟩ := List.forall_mem_cons.mp h
    obtain ⟨name, value, text, number, others, rfl, hvalue, hothers, rfl⟩ := writeEnumerators_cons_ok hcode
    have hfree : JumpFree text := by
      rcases hvalue with ⟨-, hnext⟩ | ⟨expr, rfl, htext, -⟩
      · have := jumpFree_nextEnumerated previous
        rwa [← hnext] at this
      · exact jumpFree_renderExpr (henumerator.parts expr (by simp [Node.parts])) htext
    exact .cons (.line (jumpFree_assigned hfree)) (ih hrest hothers)

private theorem jumpsWithin_classCode (context : Context) {header : String} (hheader : endsPlain header = true)
    (h : JumpsWithin allowed code) : JumpsWithin allowed (classCode context header code) := by
  refine .append ?_ (.suite hheader fun _ => h.orPass)
  split
  · exact .blank 2
  · exact .nil

private theorem jumpsWithin_writeEnum {reduce : Bool} {name : Option String} {values : Node} (h : OverTokens values)
    (hcode : (writeEnum reduce context name values).result = .ok code) : JumpsWithin allowed code := by
  unfold writeEnum at hcode
  split at hcode
  · rename_i enumerators
    split at hcode
    · obtain ⟨_, -, hcode⟩ := bind_eq_ok.mp hcode
      obtain ⟨body, hbody, hcode⟩ := bind_eq_ok.mp hcode
      cases hcode
      exact jumpsWithin_classCode context (endsPlain_append _ (by decide) (by decide))
        (jumpsWithin_writeEnumerators h.parts hbody)
    · exact jumpsWithin_writeEnumerators h.parts hcode
  · cases hcode

private theorem fieldHints_overTokens {members : List Node} (h : ∀ part ∈ members, OverTokens part) :
    ∀ field ∈ fieldHints members, JumpFree field.2.text := by
  induction members using fieldHints.induct with
  | case1 => simp [fieldHints]
  | case2 name quals storage type init width rest ih =>
    intro field hfield
    rw [fieldHints, List.mem_cons] at hfield
    rcases hfield with rfl | hfield
    · exact jumpFree_typeHint ((h _ (List.mem_cons_self ..)).parts type (by simp [Node.parts]))
    · exact ih (fun part hpart => h part (List.mem_cons_of_mem _ hpart)) field hfield
  | case3 other rest hother ih =>
    rw [fieldHints]
    · exact ih fun part hpart => h part (List.mem_cons_of_mem _ hpart)
    · exact hother

private theorem jumpFree_annotated {target text : String} (h : JumpFree text) : JumpFree (target ++ ": " ++ text) :=
  JumpFree.behind _ (by decide) (by decide) h

private theorem jumpsWithin_writeAggregate {name : Option String} {members : Option (List Node)}
    (h : ∀ part ∈ members.getD [], OverTokens part)
    (hcode : (writeAggregate options context name members).result = .ok code) : JumpsWithin allowed code := by
  unfold writeAggregate at hcode
  split at hcode
  · split at hcode
    · obtain ⟨body, hbody, hcode⟩ := bind_eq_ok.mp hcode
      cases hcode
      refine jumpsWithin_classCode context (endsPlain_append _ (by decide) (by decide)) ?_
      refine .of_forall fun line hline => ?_
      obtain ⟨⟨field, hint⟩, hfield, hresult⟩ := exists_of_mapM_eq_ok hbody line hline
      cases hresult
      exact .line (jumpFree_annotated (fieldHints_overTokens h _ hfield))
    · cases hcode
      exact .nil
  · cases hcode
    exact .nil

private theorem jumpsWithin_writeInnerDefinitions {type : Node} (h : OverTokens type)
    (hcode : (writeInnerDefinitions options context type).result = .ok code) : JumpsWithin allowed code := by
  induction type using writeInnerDefinitions.induct with
  | case1 name type ih => exact ih (h.parts type (by simp [Node.parts])) hcode
  | case2 target ih => exact ih (h.parts target (by simp [Node.parts])) hcode
  | case3 element size ih => exact ih (h.parts element (by simp [Node.parts])) hcode
  | case4 name values => exact jumpsWithin_writeEnum (h.parts values (by simp [Node.parts])) hcode
  | case5 name members =>
    have hmembers : ∀ part ∈ (some members).getD [], OverTokens part := h.parts
    exact jumpsWithin_writeAggregate hmembers hcode
  | case6 name members =>
    have hmembers : ∀ part ∈ (some members).getD [], OverTokens part := h.parts
    exact jumpsWithin_writeAggregate hmembers hcode
  | case7 type =>
    rw [writeInnerDefinitions] at hcode
    · cases hcode
      exact .nil
    all_goals assumption

private theorem jumpsWithin_writeInitialized {target : String} {type init : Node} (hinit : OverTokens init)
    (hcode : (writeInitialized options target type init).result = .ok code) : JumpsWithin allowed code := by
  obtain ⟨value, hvalue, hcode⟩ := bind_eq_ok.mp hcode
  have hfree := jumpFree_renderExpr hinit hvalue
  split at hcode
  · cases hcode
    exact .line (JumpFree.behind _ (by decide) (by decide) hfree)
  · cases hcode
    exact .line (jumpFree_assigned hfree)

private theorem jumpsWithin_writeUninitialized {target : String} {type : Node} (h : OverTokens type)
    (hcode : (writeUninitialized options context target type).result = .ok code) : JumpsWithin allowed code := by
  have hnone : JumpFree "None" := jumpFree_of_chars (by decide) (by decide)
  unfold writeUninitialized at hcode
  split_ifs at hcode
  · cases hcode
    exact .nil
  · cases hcode
    have hfree := hnone.append (endsPlain_append (target ++ ": " ++ (typeHint type).text) (by decide)
      (show endsPlain " | None = " = true by decide))
    rw [String.append_assoc] at hfree
    exact .line hfree
  · cases hcode
    have hfree := hnone.append (endsPlain_append target (by decide) (show endsPlain " = " = true by decide))
    rw [String.append_assoc] at hfree
    exact .line hfree
  · cases hcode
    exact .line (jumpFree_annotated (jumpFree_typeHint h))

/-- A declaration over tokens has no jumps. -/
theorem jumpsWithin_writeDecl {decl : Node} (h : OverTokens decl)
    (hcode : (writeDecl options context decl).result = .ok code) : JumpsWithin allowed code := by
  unfold writeDecl at hcode
  split at hcode
  · cases hcode
    exact .nil
  · exact jumpsWithin_writeEnum ((h.parts _ (List.mem_cons_self ..)).parts _ (by simp [Node.parts])) hcode
  · exact jumpsWithin_writeAggregate (h.parts _ (List.mem_cons_self ..)).parts hcode
  · exact jumpsWithin_writeAggregate (h.parts _ (List.mem_cons_self ..)).parts hcode
  · cases hcode
    exact .nil
  · rename_i name quals storage type init width hfunction
    have htype := h.parts type (by simp [Node.parts])
    obtain ⟨inner, hinner, hcode⟩ := bind_eq_ok.mp hcode
    have hdefinitions : JumpsWithin allowed inner := jumpsWithin_writeInnerDefinitions htype hinner
    cases init with
    | none =>
      obtain ⟨line, hline, hcode⟩ := bind_eq_ok.mp hcode
      cases hcode
      exact hdefinitions.append (jumpsWithin_writeUninitialized htype hline)
    | some init =>
      obtain ⟨line, hline, hcode⟩ := bind_eq_ok.mp hcode
      cases hcode
      exact hdefinitions.append (jumpsWithin_writeInitialized (h.parts init (by simp [Node.parts])) hline)
  · cases hcode

private theorem jumpsWithin_writeTypedef {name : String} {type : Node} (h : OverTokens (.typedef name type))
    (hcode : (writeTypedef options context name type).result = .ok code) : JumpsWithin allowed code := by
  have htype := h.parts type (by simp [Node.parts])
  have hdefined : OverTokens (definedType type) := by
    unfold definedType
    split
    · exact htype.parts _ (by simp [Node.parts])
    · exact htype
  unfold writeTypedef at hcode
  split at hcode
  · rename_i heq
    rw [heq] at hdefined
    exact jumpsWithin_writeEnum (hdefined.parts _ (by simp [Node.parts])) hcode
  · rename_i tag members heq
    rw [heq] at hdefined
    have hmembers : ∀ part ∈ (some members).getD [], OverTokens part := hdefined.parts
    exact jumpsWithin_writeAggregate hmembers hcode
  · rename_i tag members heq
    rw [heq] at hdefined
    have hmembers : ∀ part ∈ (some members).getD [], OverTokens part := hdefined.parts
    exact jumpsWithin_writeAggregate hmembers hcode
  · split at hcode
    · cases hcode
      exact .line (jumpFree_assigned (jumpFree_typeHint htype))
    · cases hcode
      exact .nil

/-! ### Simple statements -/

theorem jumpsWithin_writeStep {reduce : Bool} {step : Step} {line : Code}
    (h : (writeStep reduce step).result = .ok line) : JumpsWithin allowed [line] := by
  obtain ⟨target, -, h⟩ := bind_eq_ok.mp h
  cases h
  refine .line (jumpFree_of_endsPlain ?_)
  split
  · exact endsPlain_append target (by decide) (by decide)
  · exact endsPlain_append target (by decide) (by decide)

private theorem jumpsWithin_expression {reduce : Bool} {expr : Node} (h : OverTokens expr)
    (hcode : (do return [Code.line (← renderExpr reduce expr)] : Traced (List Code)).result = .ok code) :
    JumpsWithin allowed code := by
  obtain ⟨text, htext, hcode⟩ := bind_eq_ok.mp hcode
  cases hcode
  exact .line (jumpFree_renderExpr h htext)

private theorem jumpsWithin_writeAssert {reduce : Bool} {cond : Node} {note : Option Node} (hcond : OverTokens cond)
    (hnote : ∀ text ∈ note, OverTokens text) (hcode : (writeAssert reduce cond note).result = .ok code) :
    JumpsWithin allowed code := by
  obtain ⟨test, htest, hcode⟩ := bind_eq_ok.mp hcode
  cases note with
  | none =>
    cases hcode
    exact .line (JumpFree.append (by decide) (jumpFree_renderExpr hcond htest))
  | some note =>
    obtain ⟨text, htext, hcode⟩ := bind_eq_ok.mp hcode
    cases hcode
    have hfree : JumpFree text := jumpFree_renderExpr (hnote note rfl) htext
    exact .line (JumpFree.behind _ (by decide) (by decide) hfree)

/-- A simple statement has no jumps in its code but the one that it is. -/
theorem jumpsWithin_writeSimple {stmt : Node} (h : OverTokens stmt)
    (hcode : (writeSimple options context stmt).result = .ok code) : JumpsWithin (jumpsOf context stmt) code := by
  unfold writeSimple at hcode
  split at hcode
  case h_1 => exact jumpsWithin_writeDecl h hcode
  case h_2 decls =>
    obtain ⟨parts, hparts, hcode⟩ := bind_eq_ok.mp hcode
    cases hcode
    refine .flatten fun part hpart => ?_
    obtain ⟨decl, hdecl, hresult⟩ := exists_of_mapM_eq_ok hparts part hpart
    exact jumpsWithin_writeDecl (h.parts decl hdecl) hresult
  case h_3 name type => exact jumpsWithin_writeTypedef h hcode
  case h_4 op target value =>
    obtain ⟨text, htext, hcode⟩ := bind_eq_ok.mp hcode
    cases hcode
    have htarget := h.parts target (by simp [Node.parts])
    have hvalue := h.parts value (by simp [Node.parts])
    exact .line (jumpFree_renderAssignment htarget hvalue htext)
  case h_5 op operand =>
    split at hcode
    · obtain ⟨line, hline, hcode⟩ := bind_eq_ok.mp hcode
      cases hcode
      exact jumpsWithin_writeStep hline
    · exact jumpsWithin_expression h hcode
  case h_6 =>
    cases hcode
    exact .line (jumpFree_of_chars (by decide) (by decide))
  case h_7 value =>
    obtain ⟨text, htext, hcode⟩ := bind_eq_ok.mp hcode
    cases hcode
    exact .line (JumpFree.append (by decide) (jumpFree_renderExpr (h.parts value (by simp [Node.parts])) htext))
  case h_8 =>
    cases hcode
    split
    · exact .nil
    · rename_i hskip
      exact .breakLine (by simpa [jumpsOf, containsJump, Jumps.onlyBreak] using hskip)
  case h_9 =>
    cases hcode
    split
    · exact .nil
    · exact .continueLine rfl
  case h_10 label =>
    split at hcode
    · cases hcode
      exact .line (jumpFree_closed _ (by decide) (by decide))
    · cases hcode
  case h_11 =>
    cases hcode
    exact .nil
  case h_12 text =>
    cases hcode
    exact .comment (by simp)
  case h_13 cond note =>
    exact jumpsWithin_writeAssert (h.parts cond (by simp [Node.parts]))
      (fun text htext => h.parts text (List.mem_cons_of_mem cond (Option.mem_toList.mpr htext))) hcode
  case h_14 => cases hcode
  case h_15 => cases hcode
  case h_24 => cases hcode
  all_goals exact jumpsWithin_expression h hcode

end StubGen.CUnit
