import StubGen.Proofs.Jump.Text
import StubGen.Proofs.Suite.Shape

/-!
# Clauses

A clause starts with a visible character, though not with that of a comment, and does not end with a colon.  So it is
neither blank nor a comment nor a header.

* `IsClause.between` makes a clause of the start of one and the end of one.
* `isClause_typeHint`, `isClause_renderExpr` and `isClause_renderAssignment`: what is written for types and expressions
  over the tokens of C is a clause.
-/

namespace StubGen.CUnit

open Host Traced

/-- Whether a text starts with a visible character that starts no comment. -/
def startsClause (text : String) : Bool := text.toList.head?.any fun c => c ≠ '#' && 33 ≤ c.toNat && c.toNat < 127

/-- The text is neither blank nor a comment nor a header. -/
structure IsClause (text : String) : Prop where
  starts : startsClause text = true
  ends : endsInColon text.toList = false

theorem startsClause_append {first : String} (h : startsClause first = true) (rest : String) :
    startsClause (first ++ rest) = true := by
  obtain ⟨c, hc, hvisible⟩ := (Option.any_eq_true _ _).mp h
  rw [startsClause, String.toList_append, List.head?_append, hc]
  exact hvisible

theorem not_endsInColon_append (first : String) {last : String} (hne : last ≠ "")
    (h : endsInColon last.toList = false) : endsInColon (first ++ last).toList = false := by
  have hchars : last.toList ≠ [] := fun heq => hne (String.toList_inj.mp heq)
  rw [endsInColon, List.getLast?_eq_some_getLast hchars] at h
  rw [endsInColon, String.toList_append, List.getLast?_append, List.getLast?_eq_some_getLast hchars]
  exact h

namespace IsClause

variable {first last text : String}

theorem ne_empty (h : IsClause text) : text ≠ "" := by
  rintro rfl
  exact absurd h.starts (by decide)

/-- What ends with a mark is a clause if it starts as one. -/
theorem closed (hfirst : startsClause first = true) (hne : last ≠ "") (hlast : endsInColon last.toList = false) :
    IsClause (first ++ last) :=
  ⟨startsClause_append hfirst last, not_endsInColon_append first hne hlast⟩

/-- A clause behind what starts as one. -/
theorem between (hfirst : startsClause first = true) (hlast : IsClause last) : IsClause (first ++ last) :=
  closed hfirst hlast.ne_empty hlast.ends

end IsClause

/-! ### Names and constants -/

private theorem startsClause_cons {text : String} {c : Char} {rest : List Char} (heq : text.toList = c :: rest)
    (hne : c ≠ '#') (hvisible : 33 ≤ c.toNat) (hascii : c.toNat < 127) : startsClause text = true := by
  simp [startsClause, heq, hne, hvisible, hascii]

private theorem bounds_isWordChar {c : Char} (h : isWordChar c = true) :
    c ≠ '#' ∧ c ≠ ':' ∧ 33 ≤ c.toNat ∧ c.toNat < 127 := by
  have hcode : 48 ≤ c.toNat ∧ c.toNat ≤ 57 ∨ 65 ≤ c.toNat ∧ c.toNat ≤ 90 ∨ c.toNat = 95 ∨
      97 ≤ c.toNat ∧ c.toNat ≤ 122 := by
    unfold isWordChar Char.isAlphanum Char.isAlpha Char.isUpper Char.isLower Char.isDigit at h
    simp only [Bool.or_eq_true, Bool.and_eq_true, decide_eq_true_eq, ge_iff_le, UInt32.le_iff_toNat_le] at h
    rcases h with ((h | h) | h) | rfl
    · exact Or.inr (Or.inl h)
    · exact Or.inr (Or.inr (Or.inr h))
    · exact Or.inl h
    · exact Or.inr (Or.inr (Or.inl rfl))
  refine ⟨?_, ?_, by omega, by omega⟩
  · rintro rfl
    exact absurd hcode (by decide)
  · rintro rfl
    exact absurd hcode (by decide)

private theorem not_endsInColon_of_chars {text : String} (h : ∀ c ∈ text.toList, c ≠ ':') :
    endsInColon text.toList = false := by
  rw [endsInColon, decide_eq_false_iff_not]
  exact fun hlast => h ':' (List.mem_of_getLast? hlast) rfl

theorem isClause_identifier {name : String} (h : IsIdentifier name) : IsClause name := by
  have hchars := isWordChar_identifier h
  obtain ⟨c, rest, heq, hc, -⟩ := h
  obtain ⟨hne, -, hvisible, hascii⟩ := bounds_isWordChar (isWordChar_of_isWordStart hc)
  exact ⟨startsClause_cons heq hne hvisible hascii,
    not_endsInColon_of_chars fun d hd => (bounds_isWordChar (hchars d hd)).2.1⟩

theorem isClause_escapeName {name : String} (h : IsIdentifier name) : IsClause (escapeName name) := by
  by_cases hreserved : name ∈ reservedWords
  · rw [escapeName_of_mem hreserved]
    exact .closed (isClause_identifier h).starts (by decide) (by decide)
  · rw [escapeName_of_notMem hreserved]
    exact isClause_identifier h

private theorem isWordChar_digit {c : Char} (h : c.isDigit = true) : isWordChar c = true := by
  simp [isWordChar, Char.isAlphanum, h]

private theorem isClause_number {text : String} (h : IsNumber text.toList) : IsClause text := by
  have hchars := not_separator_of_isNumber h
  obtain ⟨c, rest, heq, hstart, -⟩ := h
  refine ⟨?_, not_endsInColon_of_chars fun d hd hcolon => hchars d hd (by simp [hcolon])⟩
  rcases isNumberStart_eq hstart with hdigit | rfl
  · obtain ⟨hne, -, hvisible, hascii⟩ := bounds_isWordChar (isWordChar_digit hdigit)
    exact startsClause_cons heq hne hvisible hascii
  · exact startsClause_cons heq (by decide) (by decide) (by decide)

private theorem isClause_quoted {text : String} (h : IsQuoted text.toList) : IsClause text := by
  obtain ⟨mark, quote, rest, heq, hmark, hquote, htail⟩ := h
  simp only [isQuote, Bool.or_eq_true, decide_eq_true_eq] at hquote
  have hlast : text.toList.getLast? = some quote := by
    rw [heq, List.getLast?_append, List.getLast?_cons, isQuotedTail_getLast htail]
    rfl
  constructor
  · -- the text starts with the mark of an encoding or with the quote
    have hmarks : ∀ mark ∈ encodingMarks, mark = [] ∨ startsClause (String.ofList mark) = true := by decide
    rw [← String.ofList_toList (s := text), heq, String.ofList_append]
    rcases hmarks mark hmark with rfl | hstarts
    · rcases hquote with rfl | rfl <;> simp [startsClause]
    · exact startsClause_append hstarts _
  · rw [endsInColon, hlast]
    rcases hquote with rfl | rfl <;> decide

theorem isClause_literalText (type : String) {value : String} (h : IsConstant value) :
    IsClause (literalText type value) := by
  rcases h with hnumber | hquoted
  · exact isClause_number (isNumber_literalText type hnumber)
  · rw [literalText_quoted type hquoted]
    exact isClause_quoted hquoted

theorem isClause_toString (value : Int) : IsClause (toString value) := by
  have hrepr : ∀ n : Nat, IsClause n.repr := by
    intro n
    have hbounds : ∀ c ∈ n.repr.toList, c ≠ '#' ∧ c ≠ ':' ∧ 33 ≤ c.toNat ∧ c.toNat < 127 :=
      fun c hc => bounds_isWordChar (isWordChar_digit (isDigit_repr n c hc))
    have hne : n.repr.toList ≠ [] := by
      rw [Nat.toList_repr]
      exact Nat.toDigits_ne_nil
    obtain ⟨c, rest, heq⟩ := List.exists_cons_of_ne_nil hne
    obtain ⟨hmark, -, hvisible, hascii⟩ := hbounds c (by rw [heq]; exact List.mem_cons_self ..)
    exact ⟨startsClause_cons heq hmark hvisible hascii, not_endsInColon_of_chars fun d hd => (hbounds d hd).2.1⟩
  cases value with
  | ofNat n => exact hrepr n
  | negSucc n => exact .between (by decide : startsClause "-" = true) (hrepr (n + 1))

/-! ### Types and expressions -/

/-- The names, constants and operators of a node are tokens of C. -/
structure IsLexical (node : Node) : Prop where
  names : ∀ name ∈ node.names, IsIdentifier name
  constants : ∀ value ∈ node.constants, IsConstant value
  /-- A type has a word at least. -/
  words : node ≠ .identifierType []
  /-- An operator without a form of its own is a word. -/
  operators : ∀ op operand, node = .unary op operand → op ∈ unaryOperators ∨ IsIdentifier op

theorem NameIn.isIdentifier {name : String} (h : NameIn IsLexical name) : IsIdentifier name := by
  obtain ⟨node, hnode, hname⟩ := h
  exact hnode.names name hname

private theorem HintText.isClause {text : String} (h : HintText IsLexical text) : IsClause text := by
  cases h with
  | host hname =>
    have hhost : ∀ name ∈ hostNames, startsClause name = true ∧ endsInColon name.toList = false := by decide
    exact ⟨(hhost text hname).1, (hhost text hname).2⟩
  | name hname => exact isClause_identifier hname.isIdentifier
  | nameless h => exact absurd rfl h.words
  | generic inner hstart =>
    have hgeneric : ∀ start ∈ ["List[", "Callable[[", "Callable[..., "], startsClause start = true := by decide
    exact .closed (startsClause_append (hgeneric _ hstart) inner) (by decide) (by decide)

/-- The annotation of a type over tokens is a clause. -/
theorem isClause_typeHint {type : Node} (h : Everywhere IsLexical type) : IsClause (typeHint type).text :=
  (hintText_typeHint h).isClause

private theorem ExprText.isClause {text : String} (h : ExprText IsLexical text) : IsClause text := by
  have hclose : ∀ last ∈ [")", "]", "\x7d"], last ≠ "" ∧ endsInColon last.toList = false := by decide
  have hopen : ∀ first ∈ ["(", "[", "\x7b"], startsClause first = true := by decide
  have hsign : ∀ mark ∈ ["not ", "-", "+", "~"], startsClause mark = true := by decide
  induction h with
  | @literal type value h => exact isClause_literalText type (h.constants value (List.mem_singleton_self value))
  | name h => exact isClause_escapeName h.isIdentifier
  | hint h => exact h.isClause
  | enclosed inner hfirst hlast =>
    exact .closed (startsClause_append (hopen _ hfirst) inner) (hclose _ hlast).1 (hclose _ hlast).2
  | @word op operand inner h hop =>
    have hname := (h.operators op operand rfl).resolve_left hop
    exact .closed (startsClause_append (isClause_identifier hname).starts inner) (by decide) (by decide)
  | signed hsigned _ ih => exact .between (hsign _ hsigned) ih
  | trailed inner _ hlast ih =>
    have hlast := hclose _ (List.mem_append_left ["\x7d"] hlast)
    exact .closed (startsClause_append ih.starts inner) hlast.1 hlast.2
  | joined inner _ _ _ ihfirst ihlast =>
    exact .between (startsClause_append (startsClause_append ihfirst.starts inner) _) ihlast

/-- The text of an expression over tokens is a clause. -/
theorem isClause_renderExpr {reduce : Bool} {expr : Node} {text : String} (h : Everywhere IsLexical expr)
    (hrender : (renderExpr reduce expr).result = .ok text) : IsClause text :=
  (exprText_renderExpr h hrender).isClause

/-- The text of an assignment over tokens is a clause. -/
theorem isClause_renderAssignment {reduce : Bool} {op : String} {target value : Node} {text : String}
    (htarget : Everywhere IsLexical target) (hvalue : Everywhere IsLexical value)
    (hrender : (renderAssignment reduce op target value).result = .ok text) : IsClause text :=
  (exprText_renderAssignment htarget hvalue hrender).isClause

end StubGen.CUnit
