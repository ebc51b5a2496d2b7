import Mathlib.Data.Bool.AllAny
import Mathlib.Data.List.Forall2
import StubGen.Proofs.Expression.Syntax

/-!
# The tokens of texts

`Lexes dot text tokens` says that `text` has just these tokens, before the end or before a blank, a bracket or a
comma; with `dot` also before the point of an attribute, which a number would take for its own.

* Names and constants are one token each (`lexes_word`, `lexes_number`, `lexes_quoted`).
* `Lexes.spaced`, `Lexes.bracketed`, `lexes_intercalate` and their like put texts together.
-/

namespace StubGen.CUnit

open Host

/-- What may follow a text that `Lexes`. -/
def Bounds (dot : Bool) (rest : List Char) : Prop :=
  ∀ c others, rest = c :: others → c ∈ [' ', ')', ']', ',', '(', '['] ∨ dot = true ∧ c = '.'

/-- The text has just these tokens. -/
def Lexes (dot : Bool) (text : List Char) (tokens : List Token) : Prop :=
  ∀ rest, Bounds dot rest → lex (text ++ rest) = (lex rest).map (tokens ++ ·)

theorem Lexes.weaken {dot : Bool} {text : List Char} {tokens : List Token} (h : Lexes dot text tokens) :
    Lexes false text tokens := by
  intro rest hrest
  refine h rest fun c others heq => ?_
  rcases hrest c others heq with hc | ⟨hfalse, -⟩
  · exact Or.inl hc
  · cases hfalse

private theorem bounds_cons {dot : Bool} {c : Char} (hc : c ∈ [' ', ')', ']', ',', '(', '[']) (rest : List Char) :
    Bounds dot (c :: rest) := by
  rintro d others heq
  cases heq
  exact Or.inl hc

theorem lex_nil : lex [] = some [] := by rw [lex]

theorem lex_blank (rest : List Char) : lex (' ' :: rest) = lex rest := by
  rw [lex, if_pos rfl]

private theorem lex_cut {c : Char} {rest others : List Char} {token : Token} (hc : c ≠ ' ')
    (hcut : cut c rest = some (token, others)) : lex (c :: rest) = (lex others).map (token :: ·) := by
  rw [lex, if_neg hc]
  split
  · rename_i hnone
    rw [hcut] at hnone
    cases hnone
  · rename_i found others' hfound
    rw [hcut] at hfound
    cases hfound
    rfl

/-! ### Words and constants -/

private theorem bounds_char : ∀ c ∈ [' ', ')', ']', ',', '(', '[', '.'],
    isWordChar c = false ∧ isQuote c = false ∧ c ≠ '+' ∧ c ≠ '-' ∧ c ≠ 'x' ∧ c ≠ 'X' :=
  List.all_iff_forall_prop.mp (by decide)

private theorem Bounds.char {dot : Bool} {c : Char} {others : List Char} (h : Bounds dot (c :: others)) :
    isWordChar c = false ∧ isQuote c = false ∧ c ≠ '+' ∧ c ≠ '-' ∧ c ≠ 'x' ∧ c ≠ 'X' := by
  refine bounds_char c ?_
  rcases h c others rfl with hc | ⟨-, rfl⟩
  · exact List.mem_of_mem_take (i := 6) hc
  · decide

theorem isWordChar_of_isWordStart {c : Char} (h : isWordStart c = true) : isWordChar c = true := by
  simp only [isWordStart, isWordChar, Char.isAlphanum, Bool.or_eq_true, decide_eq_true_eq] at h ⊢
  tauto

private theorem isWordStart_ne {c : Char} (h : isWordStart c = true) : c ≠ ' ' := by
  rintro rfl
  exact absurd h (by decide)

private theorem takeWhile_word {word : List Char} (rest : List Char) (hword : ∀ c ∈ word, isWordChar c = true)
    (hrest : ∀ c others, rest = c :: others → isWordChar c = false) :
    (word ++ rest).takeWhile isWordChar = word ∧ (word ++ rest).dropWhile isWordChar = rest := by
  rw [List.takeWhile_append_of_pos hword, List.dropWhile_append_of_pos hword]
  cases rest with
  | nil => simp
  | cons c others => simp [hrest c others rfl]

theorem lexes_word {c : Char} {word : List Char} (hc : isWordStart c = true) (hword : ∀ d ∈ word, isWordChar d = true) :
    Lexes true (c :: word) [wordToken (c :: word)] := by
  intro rest hrest
  obtain ⟨htake, hdrop⟩ := takeWhile_word rest hword fun d others heq => by subst heq; exact hrest.char.1
  rw [List.cons_append]
  refine lex_cut (isWordStart_ne hc) ?_
  rw [cut, if_pos hc, cutWord, htake, hdrop]
  cases rest with
  | nil => rfl
  | cons d others => simp [hrest.char.2.1]

private theorem splitNumber_append {hex : Bool} {previous : Char} {number rest : List Char}
    (hnumber : isNumberTail hex previous number = true) (hrest : Bounds false rest) :
    splitNumber hex previous (number ++ rest) = (number, rest) := by
  induction number generalizing previous with
  | nil =>
    cases rest with
    | nil => rfl
    | cons c others =>
      obtain ⟨hword, -, hplus, hminus, -, -⟩ := hrest.char
      have hdot : c ≠ '.' := by
        rintro rfl
        rcases hrest '.' others rfl with h | ⟨h, -⟩
        · exact absurd h (by decide)
        · cases h
      simp [splitNumber, numberGoesOn, hword, hdot, hplus, hminus]
  | cons c number ih =>
    rw [isNumberTail, Bool.and_eq_true] at hnumber
    simp [splitNumber, hnumber.1, ih hnumber.2]

private theorem isWordStart_digit {c : Char} (h : c.isDigit = true) : isWordStart c = false := by
  simp only [Char.isDigit, Bool.and_eq_true, decide_eq_true_eq, ge_iff_le, UInt32.le_iff_toNat_le] at h
  have h0 : '0'.val.toNat = 48 := rfl
  have h9 : '9'.val.toNat = 57 := rfl
  have hA : 'A'.val.toNat = 65 := rfl
  have ha : 'a'.val.toNat = 97 := rfl
  have halpha : c.isAlpha = false := by
    change (decide (c.val ≥ 'A'.val ∧ c.val ≤ 'Z'.val) ||
      (decide (c.val ≥ 'a'.val) && decide (c.val ≤ 'z'.val))) = false
    simp only [Bool.or_eq_false_iff, Bool.and_eq_false_iff, decide_eq_false_iff_not, ge_iff_le,
      UInt32.le_iff_toNat_le]
    omega
  have hline : c ≠ '_' := by
    rintro rfl
    have : '_'.val.toNat = 95 := rfl
    omega
  simp [isWordStart, halpha, hline]

theorem lexes_number {c : Char} {number : List Char} (hc : isNumberStart c number = true)
    (hnumber : isNumberTail (isHexNumber c number) c number = true) :
    Lexes false (c :: number) [.literal (String.ofList (c :: number))] := by
  intro rest hrest
  -- what follows does not decide how the number starts
  have hhex : isHexNumber c (number ++ rest) = isHexNumber c number := by
    cases number with
    | cons d others => rfl
    | nil =>
      cases rest with
      | nil => rfl
      | cons d others =>
        obtain ⟨-, -, -, -, hx, hX⟩ := hrest.char
        simp [isHexNumber, hx, hX]
  have hstart : isNumberStart c (number ++ rest) = true := by
    cases number with
    | cons d others => exact hc
    | nil => simp_all [isNumberStart]
  have hlead : c.isDigit = true ∨ c = '.' := by
    simp only [isNumberStart, Bool.or_eq_true, Bool.and_eq_true, decide_eq_true_eq] at hc
    tauto
  have hblank : c ≠ ' ' := by
    rintro rfl
    rcases hlead with h | h <;> exact absurd h (by decide)
  have hword : isWordStart c = false := by
    rcases hlead with h | rfl
    · exact isWordStart_digit h
    · decide
  rw [List.cons_append]
  refine lex_cut hblank ?_
  rw [cut, hword, if_neg (by decide), if_pos hstart, cutNumber, hhex, splitNumber_append hnumber hrest]

private theorem splitQuoted_append {quote : Char} {text : List Char} (rest : List Char) (hquote : isQuote quote = true)
    (htext : isQuotedTail quote text = true) : splitQuoted quote (text ++ rest) = some (text, rest) := by
  have hescape : quote ≠ '\\' := by
    rintro rfl
    exact absurd hquote (by decide)
  fun_induction isQuotedTail quote text with
  | case1 => cases htext
  | case2 c =>
    obtain rfl : c = quote := of_decide_eq_true htext
    rw [List.singleton_append, splitQuoted.eq_3]
    · simp
    · rintro d others rfl
      exact absurd rfl hescape
  | case3 c others ih => simp [splitQuoted, ih htext]
  | case4 c others hone hmore ih =>
    simp only [Bool.and_eq_true, decide_eq_true_eq] at htext
    obtain ⟨⟨hc, hline⟩, hothers⟩ := htext
    have hplain : c ≠ '\\' := by
      rintro rfl
      cases others with
      | nil => exact hone rfl
      | cons d others => exact hmore d others rfl rfl
    rw [List.cons_append, splitQuoted.eq_3]
    · simp [hc, hline, ih hothers]
    · rintro d more rfl
      exact absurd rfl hplain

private theorem isQuote_lead {c : Char} (h : isQuote c = true) :
    c ≠ ' ' ∧ isWordChar c = false ∧ isWordStart c = false ∧ c.isDigit = false ∧ c ≠ '.' := by
  simp only [isQuote, Bool.or_eq_true, decide_eq_true_eq] at h
  rcases h with rfl | rfl <;> decide

private theorem encodingMark_word : ∀ mark ∈ encodingMarks, ∀ c word, mark = c :: word →
    isWordStart c = true ∧ ∀ d ∈ word, isWordChar d = true := by
  simp only [encodingMarks, List.map_cons, List.map_nil, List.mem_cons, List.not_mem_nil, or_false]
  rintro mark (rfl | rfl | rfl | rfl | rfl) c word heq <;> cases heq <;>
    exact ⟨by decide, List.all_eq_true.mp (by decide)⟩

theorem lexes_quoted {mark text : List Char} {quote : Char} (hmark : mark ∈ encodingMarks)
    (hquote : isQuote quote = true) (htext : isQuotedTail quote text = true) :
    Lexes true (mark ++ quote :: text) [.literal (String.ofList (mark ++ quote :: text))] := by
  intro rest _
  obtain ⟨hblank, hchar, hstart, hdigit, hdot⟩ := isQuote_lead hquote
  -- a mark of the encoding is cut as a word, with the quote behind it
  have hsplit := splitQuoted_append rest hquote htext
  cases mark with
  | nil =>
    rw [List.nil_append, List.cons_append]
    refine lex_cut hblank ?_
    simp [cut, hstart, isNumberStart, hdigit, hdot, hquote, cutQuoted, hsplit]
  | cons c word =>
    obtain ⟨hc, hword⟩ := encodingMark_word _ hmark c word rfl
    obtain ⟨htake, hdrop⟩ := takeWhile_word (quote :: (text ++ rest)) hword
      fun d others heq => by cases heq; exact hchar
    rw [List.append_assoc, List.cons_append, List.cons_append]
    refine lex_cut (isWordStart_ne hc) ?_
    rw [cut, if_pos hc, cutWord, htake, hdrop]
    simp [hquote, cutQuoted, hsplit]

/-! ### Marks -/

private theorem single_mark : ∀ c ∈ "()[],-+~".toList, c ≠ ' ' ∧ isWordStart c = false ∧ c.isDigit = false ∧ c ≠ '.' ∧
    isQuote c = false ∧ c ∈ singleMarks ∧ ∀ mark ∈ doubleMarks, mark.head? ≠ some c :=
  List.all_iff_forall_prop.mp (by decide)

private theorem lex_single {c : Char} (hc : c ∈ "()[],-+~".toList) (rest : List Char) :
    lex (c :: rest) = (lex rest).map (.mark (String.ofList [c]) :: ·) := by
  obtain ⟨hblank, hword, hdigit, hdot, hquote, hsingle, hdouble⟩ := single_mark c hc
  have hpair : c :: rest.take 1 ∉ doubleMarks := fun hmem => hdouble _ hmem rfl
  refine lex_cut hblank ?_
  simp [cut, hword, isNumberStart, hdigit, hdot, hquote, cutMark, hpair, hsingle]

/-- The marks that stand before a blank. -/
def spacedMarks : List String :=
  ["not", "or", "and", "if", "else", ":=", "<", ">", "<=", ">=", "==", "!=", "|", "^", "&", "<<", ">>", "+", "-", "*",
    "/", "%"]

private theorem cut_spaced {op : String} (hop : op ∈ spacedMarks) :
    ∃ c word, op.toList = c :: word ∧ c ≠ ' ' ∧
      ∀ rest, cut c (word ++ ' ' :: rest) = some (.mark op, ' ' :: rest) := by
  simp only [spacedMarks, List.mem_cons, List.not_mem_nil, or_false] at hop
  rcases hop with rfl | rfl | rfl | rfl | rfl | rfl | rfl | rfl | rfl | rfl | rfl | rfl | rfl | rfl | rfl | rfl | rfl |
    rfl | rfl | rfl | rfl | rfl <;>
    exact ⟨_, _, rfl, by decide, fun rest => rfl⟩

private theorem lex_spaced {op : String} (hop : op ∈ spacedMarks) (rest : List Char) :
    lex (op.toList ++ ' ' :: rest) = (lex rest).map (.mark op :: ·) := by
  obtain ⟨c, word, hop, hblank, hcut⟩ := cut_spaced hop
  rw [hop, List.cons_append, lex_cut hblank (hcut rest), lex_blank]

theorem Lexes.spaced {dot : Bool} {l r : List Char} {left right : List Token} (hl : Lexes false l left) (op : String)
    (hop : op ∈ spacedMarks) (hr : Lexes dot r right) :
    Lexes dot (l ++ ' ' :: op.toList ++ ' ' :: r) (left ++ .mark op :: right) := by
  intro rest hrest
  have hleft := hl (' ' :: (op.toList ++ ' ' :: (r ++ rest))) (bounds_cons (by decide) _)
  rw [lex_blank, lex_spaced hop, hr rest hrest] at hleft
  simpa [Option.map_map, Function.comp_def] using hleft

theorem Lexes.not {dot : Bool} {text : List Char} {tokens : List Token} (h : Lexes dot text tokens) :
    Lexes dot ("not".toList ++ ' ' :: text) (.mark "not" :: tokens) := by
  intro rest hrest
  rw [List.append_assoc, List.cons_append, lex_spaced (by decide), h rest hrest]
  simp [Option.map_map, Function.comp_def]

theorem Lexes.signed {dot : Bool} {text : List Char} {tokens : List Token} (h : Lexes dot text tokens) (c : Char)
    (hc : c ∈ "-+~".toList) : Lexes dot (c :: text) (.mark (String.ofList [c]) :: tokens) := by
  intro rest hrest
  rw [List.cons_append, lex_single (List.mem_of_mem_drop (i := 5) hc), h rest hrest]
  simp [Option.map_map, Function.comp_def]

/-! ### Brackets -/

private theorem bracket_bounds : ∀ c ∈ "([)]".toList, c ∈ "()[],-+~".toList ∧ c ∈ [' ', ')', ']', ',', '(', '['] :=
  List.all_iff_forall_prop.mp (by decide)

theorem Lexes.enclosed {text : List Char} {tokens : List Token} (h : Lexes false text tokens) (first last : Char)
    (hfirst : first ∈ "([".toList) (hlast : last ∈ ")]".toList) :
    Lexes true (first :: text ++ [last])
      (.mark (String.ofList [first]) :: tokens ++ [.mark (String.ofList [last])]) := by
  intro rest _
  obtain ⟨hopen, -⟩ := bracket_bounds first (List.mem_of_mem_take (i := 2) hfirst)
  obtain ⟨hclose, hbounds⟩ := bracket_bounds last (List.mem_of_mem_drop (i := 2) hlast)
  have htext := h (last :: rest) (bounds_cons hbounds rest)
  rw [lex_single hclose] at htext
  simp [lex_single hopen, htext, Option.map_map, Function.comp_def]

/-- A bracket ends any text before it. -/
theorem Lexes.append_bracket {dot dot' : Bool} {c : Char} {l r : List Char} {left right : List Token}
    (hl : Lexes dot l left) (hc : c ∈ "([".toList) (hr : Lexes dot' (c :: r) right) :
    Lexes dot' (l ++ c :: r) (left ++ right) := by
  intro rest hrest
  obtain ⟨-, hbounds⟩ := bracket_bounds c (List.mem_of_mem_take (i := 2) hc)
  have hleft := hl (c :: (r ++ rest)) (bounds_cons hbounds _)
  rw [List.append_assoc, List.cons_append, hleft, ← List.cons_append, hr rest hrest]
  simp [Option.map_map, Function.comp_def]

theorem Lexes.append_field {text : List Char} {tokens : List Token} {c : Char} {word : List Char}
    (h : Lexes true text tokens) (hc : isWordStart c = true) (hword : ∀ d ∈ word, isWordChar d = true) :
    Lexes true (text ++ '.' :: c :: word) (tokens ++ [.mark ".", wordToken (c :: word)]) := by
  intro rest hrest
  have hdigit : c.isDigit = false := by
    cases hd : c.isDigit with
    | false => rfl
    | true => rw [isWordStart_digit hd] at hc; cases hc
  have hpair : ['.', c] ∉ doubleMarks := by
    have : ∀ mark ∈ doubleMarks, mark.head? ≠ some '.' := by decide
    exact fun hmem => this _ hmem rfl
  have hpoint : lex ('.' :: (c :: word ++ rest)) = (lex (c :: word ++ rest)).map (.mark "." :: ·) := by
    refine lex_cut (by decide) ?_
    have hsingle : '.' ∈ singleMarks := by decide
    have hstart : isWordStart '.' = false ∧ '.'.isDigit = false ∧ isQuote '.' = false := by decide
    simp [cut, isNumberStart, hstart, hdigit, cutMark, hpair, hsingle]
  have htext := h ('.' :: (c :: word ++ rest)) fun d others heq => by cases heq; exact Or.inr ⟨rfl, rfl⟩
  rw [hpoint, lexes_word hc hword rest hrest] at htext
  simpa [Option.map_map, Function.comp_def] using htext

theorem lexes_nil (dot : Bool) : Lexes dot [] [] := by
  intro rest _
  cases h : lex rest <;> simp [h]

theorem lexes_intercalate {texts : List (List Char)} {tokens : List (List Token)}
    (h : List.Forall₂ (Lexes false) texts tokens) :
    Lexes false ([',', ' '].intercalate texts) ([.mark ","].intercalate tokens) := by
  induction h with
  | nil => exact lexes_nil false
  | @cons text token texts tokens hitem hitems ih =>
    cases hitems with
    | nil => simpa using hitem
    | @cons text' token' texts tokens hnext hitems =>
      intro rest hrest
      rw [List.intercalate_cons_cons, List.intercalate_cons_cons]
      have hcomma := hitem (',' :: ' ' :: ([',', ' '].intercalate (text' :: texts) ++ rest))
        (bounds_cons (by decide) _)
      rw [lex_single (by decide), lex_blank, ih rest hrest] at hcomma
      simpa [Option.map_map, Function.comp_def] using hcomma

end StubGen.CUnit
