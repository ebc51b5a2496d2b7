import StubGen.Proofs.Expression.Lexing

/-!
# The texts of constants

The text that `literalText` gives a constant is one token again: a number stays a number when its suffix is dropped or
its octal mark is spelled out (`isNumber_literalText`), and what is quoted does not change (`literalText_quoted`).
A number in decimal notation has the value it was written from (`intValue?_toString`).
-/

namespace StubGen.CUnit

open Host

private theorem isNumberTail_prefix {hex : Bool} {previous : Char} {start rest : List Char}
    (h : isNumberTail hex previous (start ++ rest) = true) : isNumberTail hex previous start = true := by
  induction start generalizing previous with
  | nil => rfl
  | cons c start ih =>
    rw [List.cons_append, isNumberTail, Bool.and_eq_true] at h
    rw [isNumberTail, h.1, ih h.2]
    rfl

/-- The start of a number is a number, unless it is a point alone. -/
private theorem isNumber_prefix {c : Char} {start rest : List Char} (hstart : isNumberStart c start = true)
    (h : isNumberTail (isHexNumber c (start ++ rest)) c (start ++ rest) = true) : IsNumber (c :: start) := by
  refine ⟨c, start, rfl, hstart, ?_⟩
  cases start with
  | nil => rfl
  | cons d start => exact isNumberTail_prefix h

private theorem isIntegerChar_digit {c : Char} (h : c.isDigit = true) : isIntegerChar c = true := by
  simp [isIntegerChar, h]

private theorem isNumber_dropIntSuffix {chars : List Char} (h : IsNumber chars) : IsNumber (dropIntSuffix chars) := by
  dsimp only [dropIntSuffix]
  split
  · obtain ⟨c, rest, rfl, hstart, htail⟩ := h
    have hc : isIntegerChar c = true := by
      simp only [isNumberStart, Bool.or_eq_true, Bool.and_eq_true, decide_eq_true_eq] at hstart
      rcases hstart with hd | ⟨rfl, -⟩
      · exact isIntegerChar_digit hd
      · decide
    rw [List.takeWhile_cons_of_pos hc]
    rw [← List.takeWhile_append_dropWhile (p := isIntegerChar) (l := rest)] at htail
    refine isNumber_prefix ?_ htail
    cases rest with
    | nil => exact hstart
    | cons d rest =>
      simp only [isNumberStart, Bool.or_eq_true, Bool.and_eq_true, decide_eq_true_eq] at hstart ⊢
      rcases hstart with hd | ⟨rfl, hd⟩
      · exact Or.inl hd
      · have : isIntegerChar d = true := isIntegerChar_digit (by simpa using hd)
        rw [List.takeWhile_cons_of_pos this]
        exact Or.inr ⟨rfl, hd⟩
  · exact h

private theorem isNumber_dropLast {chars : List Char} (h : IsNumber chars)
    (hlast : chars.getLast? = some 'f' ∨ chars.getLast? = some 'F') : IsNumber chars.dropLast := by
  obtain ⟨c, rest, rfl, hstart, htail⟩ := h
  have hc : c.isDigit = true ∨ c = '.' ∧ rest.head?.any Char.isDigit = true := by
    simpa [isNumberStart] using hstart
  -- the last letter is neither the first character nor the digit after a leading point
  rcases List.eq_nil_or_concat rest with rfl | ⟨start, d, rfl⟩
  · exfalso
    rcases hc with hc | ⟨rfl, hc⟩
    · rcases hlast with hl | hl <;> cases hl <;> revert hc <;> decide
    · cases hc
  · rw [List.concat_eq_append] at *
    have hd : d = 'f' ∨ d = 'F' := by simpa [List.getLast?_cons] using hlast
    rw [← List.cons_append, List.dropLast_concat]
    refine isNumber_prefix ?_ htail
    cases start with
    | cons e start => exact hstart
    | nil =>
      rcases hc with hc | ⟨-, hc⟩
      · simp [isNumberStart, hc]
      · rcases hd with rfl | rfl <;> exact absurd hc (by decide)

private theorem isNumber_dropFloatSuffix (type : String) {chars : List Char} (h : IsNumber chars) :
    IsNumber (dropFloatSuffix type chars) := by
  unfold dropFloatSuffix
  split
  · rename_i hsuffix
    simp only [Bool.and_eq_true, Bool.or_eq_true, decide_eq_true_eq] at hsuffix
    exact isNumber_dropLast h hsuffix.2
  · exact h

theorem isNumberTail_word {hex : Bool} {previous : Char} {chars : List Char}
    (h : ∀ c ∈ chars, isWordChar c = true) : isNumberTail hex previous chars = true := by
  induction chars generalizing previous with
  | nil => rfl
  | cons c chars ih =>
    have hc := h c (List.mem_cons_self ..)
    have hrest := @ih c fun d hd => h d (List.mem_cons_of_mem _ hd)
    simp [isNumberTail, numberGoesOn, hc, hrest]

private theorem isNumber_markOctal {chars : List Char} (h : IsNumber chars) : IsNumber (markOctal chars) := by
  unfold markOctal
  split
  · split
    · rename_i d rest hdigits
      refine ⟨'0', 'o' :: d :: rest, rfl, rfl, isNumberTail_word ?_⟩
      intro c hc
      rcases List.mem_cons.mp hc with rfl | hc
      · decide
      · have := List.all_eq_true.mp hdigits c hc
        simp [isWordChar, Char.isAlphanum, this]
    · exact h
  · exact h

theorem isNumber_literalText (type : String) {value : String} (h : IsNumber value.toList) :
    IsNumber (literalText type value).toList := by
  rw [literalText, String.toList_ofList]
  exact isNumber_markOctal (isNumber_dropFloatSuffix type (isNumber_dropIntSuffix h))

theorem isQuotedTail_getLast {quote : Char} {text : List Char} (h : isQuotedTail quote text = true) :
    text.getLast? = some quote := by
  fun_induction isQuotedTail quote text with
  | case1 => cases h
  | case2 c =>
    obtain rfl : c = quote := of_decide_eq_true h
    rfl
  | case3 c others ih =>
    have := ih h
    simp [List.getLast?_cons, this]
  | case4 c others hone hmore ih =>
    simp only [Bool.and_eq_true] at h
    have := ih h.2
    simp [List.getLast?_cons, this]

private theorem encodingMark_head : ∀ mark ∈ encodingMarks, mark.head?.all fun c =>
    !isIntegerChar c && !c.isDigit && c ≠ '.' && c ≠ '0' := by
  decide

private theorem IsQuoted.head {chars : List Char} (h : IsQuoted chars) :
    ∃ c rest, chars = c :: rest ∧ isIntegerChar c = false ∧ c.isDigit = false ∧ c ≠ '.' ∧ c ≠ '0' := by
  obtain ⟨mark, quote, rest, rfl, hmark, hquote, -⟩ := h
  cases mark with
  | nil =>
    refine ⟨quote, rest, rfl, ?_⟩
    simp only [isQuote, Bool.or_eq_true, decide_eq_true_eq] at hquote
    rcases hquote with rfl | rfl <;> decide
  | cons c mark =>
    have := encodingMark_head _ hmark
    simp only [List.head?_cons, Option.all_some, Bool.and_eq_true, Bool.not_eq_true', decide_eq_true_eq] at this
    exact ⟨c, _, rfl, this.1.1.1, this.1.1.2, this.1.2, this.2⟩

/-- The text of what is quoted is the constant itself. -/
theorem literalText_quoted (type : String) {value : String} (h : IsQuoted value.toList) :
    literalText type value = value := by
  obtain ⟨c, rest, hchars, hinteger, -, -, hzero⟩ := h.head
  have hint : dropIntSuffix value.toList = value.toList := by
    simp [dropIntSuffix, hchars, hinteger]
  have hlast : value.toList.getLast? ≠ some 'f' ∧ value.toList.getLast? ≠ some 'F' := by
    obtain ⟨mark, quote, text, heq, -, hquote, htext⟩ := h
    have : value.toList.getLast? = some quote := by
      rw [heq]
      simp [List.getLast?_append, List.getLast?_cons, isQuotedTail_getLast htext]
    rw [this]
    constructor <;> intro hq <;> cases hq <;> revert hquote <;> decide
  have hfloat : dropFloatSuffix type value.toList = value.toList := by
    simp [dropFloatSuffix, hlast]
  have hoctal : markOctal value.toList = value.toList := by
    unfold markOctal
    split
    · rename_i heq
      rw [hchars] at heq
      cases heq
      exact absurd rfl hzero
    · rfl
  rw [literalText, hint, hfloat, hoctal, String.ofList_toList]

/-- The text of a constant is one token. -/
theorem lexes_literalText (type : String) {value : String} (h : IsConstant value) :
    Lexes (!isNumeric (.literal (literalText type value))) (literalText type value).toList
      [.literal (literalText type value)] := by
  rcases h with h | h
  · obtain ⟨c, rest, heq, hstart, htail⟩ := isNumber_literalText type h
    have hnumeric : isNumeric (.literal (literalText type value)) = true := by
      simp [isNumeric, heq, hstart]
    have hlex := lexes_number hstart htail
    rw [hnumeric]
    rwa [← heq, String.ofList_toList] at hlex
  · rw [literalText_quoted type h]
    obtain ⟨c, others, hchars, -, hdigit, hpoint, -⟩ := h.head
    have hnumeric : isNumeric (.literal value) = false := by
      simp [isNumeric, hchars, isNumberStart, hdigit, hpoint]
    obtain ⟨mark, quote, rest, heq, hmark, hquote, htail⟩ := h
    have hlex := lexes_quoted hmark hquote htail
    rw [hnumeric]
    rwa [← heq, String.ofList_toList] at hlex

/-! ### Numbers -/

theorem digitsValue?_toDigits (n : Nat) : digitsValue? 10 (Nat.toDigits 10 n) = some n := by
  have hdigit : ∀ d < 10, digitValue? 10 (Nat.digitChar d) = some d := by decide
  induction n using Nat.strongRecOn with
  | ind n ih =>
    rw [Nat.toDigits_eq_if (by decide)]
    by_cases hsmall : n < 10
    · rw [if_pos hsmall]
      simp [digitsValue?, appendDigits?, hdigit n hsmall]
    · have hlast : n % 10 < 10 := Nat.mod_lt n (by decide)
      have hsum : n / 10 * 10 + n % 10 = n := by omega
      rw [if_neg hsmall, digitsValue?_append, ih (n / 10) (by omega)]
      simp [appendDigits?, hdigit (n % 10) hlast, hsum]

/-- A number starts with a zero only if it is zero. -/
theorem head?_toDigits {n : Nat} (h : (Nat.toDigits 10 n).head? = some '0') : n = 0 := by
  have hdigit : ∀ d < 10, Nat.digitChar d = '0' → d = 0 := by decide
  induction n using Nat.strongRecOn with
  | ind n ih =>
    rw [Nat.toDigits_eq_if (by decide)] at h
    by_cases hsmall : n < 10
    · rw [if_pos hsmall, List.head?_cons, Option.some.injEq] at h
      exact hdigit n hsmall h
    · rw [if_neg hsmall, List.head?_append_of_ne_nil _ Nat.toDigits_ne_nil] at h
      have hzero := ih (n / 10) (by omega) h
      omega

/-- Decimal notation has no zero in front of other digits. -/
theorem toDigits_ne_marked (n : Nat) (d : Char) (rest : List Char) : Nat.toDigits 10 n ≠ '0' :: d :: rest := by
  intro heq
  have hzero := head?_toDigits (by rw [heq, List.head?_cons])
  have hdigit : Nat.toDigits 10 0 = ['0'] := Nat.toDigits_of_lt_base (by decide)
  rw [hzero, hdigit] at heq
  cases heq

theorem trimSuffix_eq {chars : List Char} (h : ∀ c ∈ chars, isSuffixChar c = false) :
    trimSuffix chars = chars := by
  have hdrop : chars.reverse.dropWhile isSuffixChar = chars.reverse := by
    cases hreverse : chars.reverse with
    | nil => rfl
    | cons c rest =>
      have hc : c ∈ chars := by
        rw [← List.mem_reverse, hreverse]
        exact List.mem_cons_self ..
      rw [List.dropWhile_cons_of_neg (by rw [h c hc]; simp)]
  rw [trimSuffix, hdrop, List.reverse_reverse]

private theorem isDigit_toDigits {n : Nat} : ∀ c ∈ Nat.toDigits 10 n, c.isDigit = true :=
  fun _ => Nat.isDigit_of_mem_toDigits (by decide) (by decide)

theorem not_suffix_of_isDigit {c : Char} (h : c.isDigit = true) : isSuffixChar c = false := by
  have hletters : "uUlLzZ".toList.all (!·.isDigit) = true := by decide
  cases hsuffix : isSuffixChar c with
  | false => rfl
  | true =>
    have hletter := List.all_eq_true.mp hletters c (by simpa [isSuffixChar] using hsuffix)
    rw [h] at hletter
    cases hletter

private theorem integerText?_natural (n : Nat) : integerText? (Nat.toDigits 10 n) = int64? n := by
  have hdigits := @isDigit_toDigits n
  have hsigned : ∀ (c : Char) (rest : List Char), c.isDigit = false → Nat.toDigits 10 n ≠ c :: rest := by
    intro c rest hc heq
    have := hdigits c (by rw [heq]; exact List.mem_cons_self ..)
    rw [hc] at this
    cases this
  have hvalue : integerValue? 10 (Nat.toDigits 10 n) = int64? n := by
    rw [integerValue?]
    · -- stepwise, so that the kernel does not have to compare with the bounds of 64 bits
      rw [if_neg Nat.toDigits_ne_nil, digitsValue?_toDigits, Option.bind_eq_bind, Option.bind_some]
      exact congrArg int64? (if_neg Bool.false_ne_true)
    · exact fun rest => hsigned '-' rest (by decide)
    · exact fun rest => hsigned '+' rest (by decide)
  rw [integerText?, trimSuffix_eq fun c hc => not_suffix_of_isDigit (hdigits c hc)]
  split
  · exact absurd ‹_› (toDigits_ne_marked n 'x' _)
  · exact absurd ‹_› (toDigits_ne_marked n 'X' _)
  · exact absurd ‹_› (toDigits_ne_marked n _ _)
  · exact hvalue

private theorem integerText?_negative (n : Nat) : integerText? ('-' :: Nat.toDigits 10 n) = int64? (-n) := by
  have hchars : ∀ c ∈ '-' :: Nat.toDigits 10 n, isSuffixChar c = false := by
    rw [List.forall_mem_cons]
    exact ⟨by decide, fun c hc => not_suffix_of_isDigit (isDigit_toDigits c hc)⟩
  have hvalue : integerValue? 10 ('-' :: Nat.toDigits 10 n) = int64? (-n) := by
    rw [integerValue?, if_neg Nat.toDigits_ne_nil, digitsValue?_toDigits, Option.bind_eq_bind, Option.bind_some]
    exact congrArg int64? (if_pos rfl)
  rw [integerText?, trimSuffix_eq hchars]
  exact hvalue

/-- A number in decimal notation is a constant of its value. -/
theorem intValue?_toString {value : Int} (h : IsInt64 value) :
    (Node.constant "int" (toString value)).intValue? = some value := by
  have hint : containsPart "int".toList "int".toList = true := by decide
  have htext : integerText? (toString value).toList = int64? value := by
    rw [Int.toString_eq_repr, Int.repr_eq_if]
    by_cases hsign : 0 ≤ value
    · rw [if_pos hsign, Nat.toList_repr, integerText?_natural, Int.toNat_of_nonneg hsign]
    · have hmagnitude : -((-value).toNat : Int) = value := by omega
      rw [if_neg hsign, String.toList_append, Nat.toList_repr]
      exact (integerText?_negative _).trans (by rw [hmagnitude])
  rw [Node.intValue?, if_pos hint, htext, int64?, if_pos h]

end StubGen.CUnit
