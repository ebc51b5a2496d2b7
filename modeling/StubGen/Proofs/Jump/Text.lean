import StubGen.Proofs.Expression.Forms
import StubGen.Proofs.Expression.Literal
import StubGen.Proofs.Layout.LoopLevel

/-!
# Texts that are no jumps

The text of an expression or a type over tokens of C never ends with `break` or `continue`: names are escaped, and
constants end with a quote or are numbers.

* `JumpFree` texts end with no jump.  A text stays so behind anything that ends with no letter (`JumpFree.append`).
* `jumpFree_renderExpr` and `jumpFree_typeHint` are the results on expressions and types.
-/

namespace StubGen.CUnit

open Host Traced

/-! ### Ends of texts -/

/-- The text ends with no jump. -/
def JumpFree (text : String) : Prop := ∀ word ∈ ["break", "continue"], ¬EndsIn word.toList text.toList

/-- Whether the text does not end with a letter. -/
def endsPlain (text : String) : Bool := text.toList.getLast?.all fun c => !c.isAlpha

theorem endsPlain_append (first : String) {second : String} (hne : second ≠ "") (h : endsPlain second = true) :
    endsPlain (first ++ second) = true := by
  have hchars : second.toList ≠ [] := fun heq => hne (String.toList_inj.mp heq)
  rw [endsPlain, List.getLast?_eq_some_getLast hchars] at h
  rw [endsPlain, String.toList_append, List.getLast?_append, List.getLast?_eq_some_getLast hchars]
  exact h

private theorem isAlpha_jump : ∀ word ∈ ["break", "continue"], word.toList.all Char.isAlpha = true := by decide

private theorem endsIn_drop {word before text : List Char} {c : Char} (hc : c ∉ word)
    (h : EndsIn word (before ++ c :: text)) : EndsIn word text := by
  obtain ⟨start, heq, hlast⟩ := h
  have hword : word <:+ before ++ c :: text := ⟨start, heq.symm⟩
  have htext : c :: text <:+ before ++ c :: text := List.suffix_append ..
  rcases List.suffix_or_suffix_of_suffix hword htext with hsuffix | hsuffix
  · -- the word ends after the character
    rcases List.suffix_cons_iff.mp hsuffix with rfl | ⟨others, rfl⟩
    · exact absurd (List.mem_cons_self ..) hc
    · refine ⟨others, rfl, fun d hd => hlast d ?_⟩
      rw [← List.cons_append, ← List.append_assoc] at heq
      rw [← List.append_cancel_right heq, List.getLast?_append, List.getLast?_cons, Option.mem_def.mp hd]
      rfl
  · -- the character would be in the word
    exact absurd (hsuffix.subset (List.mem_cons_self ..)) hc

/-- Behind a character that is no letter only the rest of the text matters. -/
private theorem jumpFree_cons {before text : List Char} {c : Char} (hc : c.isAlpha = false)
    (h : ∀ word ∈ ["break", "continue"], ¬EndsIn word.toList text) :
    ∀ word ∈ ["break", "continue"], ¬EndsIn word.toList (before ++ c :: text) := by
  intro word hword hends
  refine h word hword (endsIn_drop (fun hmem => ?_) hends)
  rw [List.all_eq_true.mp (isAlpha_jump word hword) c hmem] at hc
  cases hc

private theorem not_endsIn_nil : ∀ word ∈ ["break", "continue"], ¬EndsIn word.toList [] := by
  have hne : ∀ word ∈ ["break", "continue"], word.toList ≠ [] := by decide
  rintro word hword ⟨before, heq, -⟩
  exact hne word hword (List.append_eq_nil_iff.mp heq.symm).2

theorem JumpFree.append {before text : String} (hbefore : endsPlain before = true) (h : JumpFree text) :
    JumpFree (before ++ text) := by
  rw [JumpFree, String.toList_append]
  rw [endsPlain] at hbefore
  rcases List.eq_nil_or_concat before.toList with hnil | ⟨start, c, hconcat⟩
  · rw [hnil]
    exact h
  · rw [hconcat, List.concat_eq_append] at hbefore ⊢
    rw [List.append_assoc]
    exact jumpFree_cons (by simpa using hbefore) h

theorem jumpFree_of_endsPlain {text : String} (h : endsPlain text = true) : JumpFree text := by
  have hempty : JumpFree "" := not_endsIn_nil
  have := hempty.append h
  rwa [String.append_empty] at this

/-- What ends a text decides whether the text ends with a jump. -/
theorem jumpFree_closed (text : String) {last : String} (hne : last ≠ "") (h : endsPlain last = true) :
    JumpFree (text ++ last) :=
  jumpFree_of_endsPlain (endsPlain_append text hne h)

/-- A text stays free of jumps behind anything that a mark or a blank separates from it. -/
theorem JumpFree.behind (first : String) {mark text : String} (hne : mark ≠ "") (hmark : endsPlain mark = true)
    (h : JumpFree text) : JumpFree (first ++ mark ++ text) :=
  h.append (endsPlain_append first hne hmark)

/-- A text without blanks, colons and semicolons ends with a jump only if it is one. -/
theorem jumpFree_of_chars {text : String} (hchars : text.toList.all (· ∉ [' ', ':', ';']) = true)
    (hne : text ∉ ["break", "continue"]) : JumpFree text := by
  rw [List.all_iff_forall_prop] at hchars
  rintro word hword ⟨before, heq, hlast⟩
  rcases List.eq_nil_or_concat before with rfl | ⟨start, c, rfl⟩
  · rw [List.nil_append] at heq
    rw [String.toList_inj.mp heq] at hne
    exact hne hword
  · rw [List.concat_eq_append] at heq hlast
    refine hchars c ?_ (hlast c (by simp))
    rw [heq]
    simp

theorem JumpFree.not_isJump {word text : String} (h : JumpFree text) (hword : word ∈ ["break", "continue"]) :
    ¬IsJump word text := by
  rintro ⟨-, before, heq, hlast⟩
  refine h word hword ⟨text.toList.takeWhile (· = ' ') ++ before, ?_, fun c hc => ?_⟩
  · rw [List.append_assoc, ← heq, bareText, List.takeWhile_append_dropWhile]
  · rw [List.getLast?_append] at hc
    cases hb : before.getLast? with
    | some d =>
      rw [hb] at hc
      exact hlast c (by rw [hb]; exact hc)
    | none =>
      rw [hb, Option.none_or] at hc
      have hblank := List.all_eq_true.mp List.all_takeWhile c (List.mem_of_getLast? hc)
      rw [of_decide_eq_true hblank]
      exact List.mem_cons_self ..

/-! ### Names and constants -/

theorem isWordChar_identifier {name : String} (h : IsIdentifier name) :
    ∀ c ∈ name.toList, isWordChar c = true := by
  obtain ⟨c, rest, heq, hc, hrest⟩ := h
  rw [heq]
  intro d hd
  rcases List.mem_cons.mp hd with rfl | hd
  · exact isWordChar_of_isWordStart hc
  · exact hrest d hd

private theorem separator_isWordChar : ∀ c ∈ [' ', ':', ';'], isWordChar c = false :=
  List.all_iff_forall_prop.mp (by decide)

private theorem jumpFree_identifier {name : String} (h : IsIdentifier name) (hne : name ∉ ["break", "continue"]) :
    JumpFree name := by
  refine jumpFree_of_chars (List.all_iff_forall_prop.mpr fun c hc hsep => ?_) hne
  have := isWordChar_identifier h c hc
  rw [separator_isWordChar c hsep] at this
  cases this

theorem IsName.jumpFree {name : String} (h : IsName name) : JumpFree name := jumpFree_identifier h.1 h.2

theorem jumpFree_escapeName {name : String} (h : IsIdentifier name) : JumpFree (escapeName name) := by
  by_cases hreserved : name ∈ reservedWords
  · rw [escapeName_of_mem hreserved]
    exact jumpFree_closed name (by decide) (by decide)
  · rw [escapeName_of_notMem hreserved]
    refine jumpFree_identifier h fun hjump => hreserved ?_
    revert hjump
    simp only [List.mem_cons, List.not_mem_nil, or_false]
    rintro (rfl | rfl) <;> decide

private theorem not_separator_number {hex : Bool} {previous : Char} {chars : List Char}
    (h : isNumberTail hex previous chars = true) : ∀ c ∈ chars, c ∉ [' ', ':', ';'] := by
  induction chars generalizing previous with
  | nil => intro c hc; cases hc
  | cons d chars ih =>
    rw [isNumberTail, Bool.and_eq_true] at h
    intro c hc hsep
    rcases List.mem_cons.mp hc with rfl | hc
    · have hgoes := h.1
      rw [numberGoesOn, separator_isWordChar c hsep] at hgoes
      simp only [List.mem_cons, List.not_mem_nil, or_false] at hsep
      rcases hsep with rfl | rfl | rfl <;> simp at hgoes
    · exact ih h.2 c hc hsep

/-- A number starts with a digit or a point. -/
theorem isNumberStart_eq {c : Char} {rest : List Char} (h : isNumberStart c rest = true) :
    c.isDigit = true ∨ c = '.' := by
  simp only [isNumberStart, Bool.or_eq_true, Bool.and_eq_true, decide_eq_true_eq] at h
  exact h.imp_right And.left

theorem not_separator_of_isNumber {chars : List Char} (h : IsNumber chars) : ∀ c ∈ chars, c ∉ [' ', ':', ';'] := by
  obtain ⟨c, rest, rfl, hstart, htail⟩ := h
  intro d hd hsep
  rcases List.mem_cons.mp hd with rfl | hd
  · have hc := isNumberStart_eq hstart
    simp only [List.mem_cons, List.not_mem_nil, or_false] at hsep
    rcases hsep with rfl | rfl | rfl <;> revert hc <;> decide
  · exact not_separator_number htail d hd hsep

private theorem jumpFree_number {text : String} (h : IsNumber text.toList) : JumpFree text := by
  refine jumpFree_of_chars (List.all_iff_forall_prop.mpr (not_separator_of_isNumber h)) ?_
  obtain ⟨c, rest, heq, hstart, -⟩ := h
  have hc := isNumberStart_eq hstart
  simp only [List.mem_cons, List.not_mem_nil, or_false]
  rintro (rfl | rfl) <;> cases heq <;> revert hc <;> decide

private theorem jumpFree_quoted {text : String} (h : IsQuoted text.toList) : JumpFree text := by
  obtain ⟨mark, quote, rest, heq, -, hquote, htail⟩ := h
  apply jumpFree_of_endsPlain
  have hlast : text.toList.getLast? = some quote := by
    rw [heq, List.getLast?_append, List.getLast?_cons, isQuotedTail_getLast htail]
    rfl
  rw [endsPlain, hlast]
  simp only [isQuote, Bool.or_eq_true, decide_eq_true_eq] at hquote
  rcases hquote with rfl | rfl <;> decide

theorem jumpFree_literalText (type : String) {value : String} (h : IsConstant value) :
    JumpFree (literalText type value) := by
  rcases h with hnumber | hquoted
  · exact jumpFree_number (isNumber_literalText type hnumber)
  · rw [literalText_quoted type hquoted]
    exact jumpFree_quoted hquoted

theorem isDigit_repr (n : Nat) : ∀ c ∈ n.repr.toList, c.isDigit = true := by
  intro c hc
  rw [Nat.toList_repr] at hc
  exact Nat.isDigit_of_mem_toDigits (by decide) (by decide) hc

/-! ### Types and expressions -/

private theorem HintText.jumpFree {text : String} (h : HintText HasTokens text) : JumpFree text := by
  cases h with
  | host hname =>
    have hhost : ∀ name ∈ hostNames, name.toList.all (· ∉ [' ', ':', ';']) = true ∧ name ∉ ["break", "continue"] := by
      decide
    exact jumpFree_of_chars (hhost text hname).1 (hhost text hname).2
  | name hname =>
    obtain ⟨node, hnode, hname⟩ := hname
    exact (hnode.names text hname).jumpFree
  | nameless => exact jumpFree_of_endsPlain (by decide)
  | generic inner => exact jumpFree_closed _ (by decide) (by decide)

/-- The annotation of a type over tokens ends with no jump. -/
theorem jumpFree_typeHint {type : Node} (h : OverTokens type) : JumpFree (typeHint type).text :=
  (hintText_typeHint h).jumpFree

private theorem ExprText.jumpFree {text : String} (h : ExprText HasTokens text) : JumpFree text := by
  have hbracket : ∀ last ∈ [")", "]", "\x7d"], last ≠ "" ∧ endsPlain last = true := by decide
  have hsign : ∀ mark ∈ ["not ", "-", "+", "~"], endsPlain mark = true := by decide
  have hmark : ∀ mark ∈ [" ", ".", " else "], mark ≠ "" ∧ endsPlain mark = true := by decide
  induction h with
  | @literal type value h => exact jumpFree_literalText type (h.constants value (List.mem_singleton_self value))
  | @name name h =>
    obtain ⟨node, hnode, hname⟩ := h
    exact jumpFree_escapeName (hnode.names name hname).1
  | hint h => exact h.jumpFree
  | enclosed inner _ hlast => exact jumpFree_closed _ (hbracket _ hlast).1 (hbracket _ hlast).2
  | word inner => exact jumpFree_closed _ (by decide) (by decide)
  | signed hsigned _ ih => exact ih.append (hsign _ hsigned)
  | trailed inner _ hlast =>
    have hlast := hbracket _ (List.mem_append_left ["\x7d"] hlast)
    exact jumpFree_closed _ hlast.1 hlast.2
  | joined inner _ hjoined _ _ ih => exact JumpFree.behind _ (hmark _ hjoined).1 (hmark _ hjoined).2 ih

/-- The text of an expression over tokens ends with no jump. -/
theorem jumpFree_renderExpr {reduce : Bool} {expr : Node} {text : String} (h : OverTokens expr)
    (hrender : (renderExpr reduce expr).result = .ok text) : JumpFree text :=
  (exprText_renderExpr h hrender).jumpFree

/-- The text of an assignment over tokens ends with no jump. -/
theorem jumpFree_renderAssignment {reduce : Bool} {op : String} {target value : Node} {text : String}
    (htarget : OverTokens target) (hvalue : OverTokens value)
    (hrender : (renderAssignment reduce op target value).result = .ok text) : JumpFree text :=
  (exprText_renderAssignment htarget hvalue hrender).jumpFree

end StubGen.CUnit
