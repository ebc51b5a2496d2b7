import StubGen.Proofs.Expression.Literal

/-!
# Integer constants

`IsInteger` gives the integer constants of C with their values, and `hostInteger?` is the value of an integer literal
of the host.  The text of a constant is a literal of the same value (`hostInteger?_literalText`), and the constant has
this value for the output wherever it fits (`intValue?_of_isInteger`).

`Node.IsGenuine` leaves out the texts that have a value for the output without being constants of C, such as signed
ones.
-/

namespace StubGen.CUnit

open Host

/-- The digits of an integer constant with the mark of their base.  A leading zero marks octal digits, so zero itself is
one of them. -/
inductive IsMagnitude : List Char → Nat → Prop
  | decimal {digits : List Char} {n : Nat} :
      digits ≠ [] → digits.head? ≠ some '0' → digitsValue? 10 digits = some n → IsMagnitude digits n
  | octal {digits : List Char} {n : Nat} : digitsValue? 8 digits = some n → IsMagnitude ('0' :: digits) n
  | hexadecimal {mark : Char} {digits : List Char} {n : Nat} :
      mark ∈ ['x', 'X'] → digits ≠ [] → digitsValue? 16 digits = some n → IsMagnitude ('0' :: mark :: digits) n

/-- The integer constants of C with their values: a magnitude, and the suffix of a type. -/
def IsInteger (chars : List Char) (n : Nat) : Prop :=
  ∃ magnitude suffix, chars = magnitude ++ suffix ∧ IsMagnitude magnitude n ∧
    (suffix = [] ∨ asciiLower suffix ∈ intSuffixes)

/-- If the node is an integer constant for the output, it is one of C. -/
def Node.IsGenuine (node : Node) : Prop :=
  ∀ type value, node = .constant type value → node.intValue?.isSome → ∃ n, IsInteger value.toList n

theorem isGenuine_constant (type : String) {value : String} {n : Nat} (h : IsInteger value.toList n) :
    (Node.constant type value).IsGenuine := by
  rintro _ _ ⟨⟩ -
  exact ⟨n, h⟩

/-- The value of digits of the host; there has to be one. -/
def hostDigits? (base : Nat) (digits : List Char) : Option Nat :=
  if digits = [] then none else digitsValue? base digits

/-- The value of an integer literal of the host.  A leading zero without a mark leads only zeros. -/
def hostInteger? : List Char → Option Nat
  | '0' :: mark :: digits =>
    if mark ∈ ['x', 'X'] then hostDigits? 16 digits
    else if mark ∈ ['o', 'O'] then hostDigits? 8 digits
    else if mark ∈ ['b', 'B'] then hostDigits? 2 digits
    else if (mark :: digits).all (· = '0') then some 0 else none
  | digits => hostDigits? 10 digits

/-! ### Characters -/

private theorem exists_digitValue?_of_append {base value n : Nat} {digits : List Char}
    (h : appendDigits? base value digits = some n) : ∀ c ∈ digits, ∃ digit, digitValue? base c = some digit := by
  induction digits generalizing value with
  | nil => exact List.forall_mem_nil _
  | cons c rest ih =>
    rw [appendDigits?, List.foldlM_cons, Option.bind_eq_bind, Option.bind_eq_some_iff] at h
    obtain ⟨next, hnext, hrest⟩ := h
    obtain ⟨digit, hdigit, -⟩ := Option.map_eq_some_iff.mp hnext
    rw [List.forall_mem_cons]
    exact ⟨⟨digit, hdigit⟩, ih hrest⟩

/-- Digits that have a value are digits of their base. -/
theorem exists_digitValue?_of_mem {base n : Nat} {digits : List Char} (h : digitsValue? base digits = some n) :
    ∀ c ∈ digits, ∃ digit, digitValue? base c = some digit :=
  exists_digitValue?_of_append h

/-- The digits of the bases up to sixteen. -/
private theorem digit_cases {base digit : Nat} {c : Char} (hbase : base ≤ 16) (h : digitValue? base c = some digit) :
    c.isDigit = true ∨ 10 < base ∧ ('a' ≤ c ∧ c ≤ 'f' ∨ 'A' ≤ c ∧ c ≤ 'F') := by
  have hlt := digitValue?_lt h
  obtain ⟨hrank, -⟩ := Option.filter_eq_some_iff.mp h
  unfold alphanumericRank? at hrank
  split at hrank
  · exact Or.inl ‹_›
  · refine Or.inr ?_
    split at hrank
    · rename_i hlower
      have hfirst : 97 ≤ c.toNat := hlower.1
      have hvalue : c.toNat - 97 + 10 = digit := Option.some.inj hrank
      have hlast : c ≤ 'f' := by
        change c.toNat ≤ 102
        omega
      exact ⟨by omega, Or.inl ⟨hlower.1, hlast⟩⟩
    · split at hrank
      · rename_i hupper
        have hfirst : 65 ≤ c.toNat := hupper.1
        have hvalue : c.toNat - 65 + 10 = digit := Option.some.inj hrank
        have hlast : c ≤ 'F' := by
          change c.toNat ≤ 70
          omega
        exact ⟨by omega, Or.inr ⟨hupper.1, hlast⟩⟩
      · cases hrank

private theorem isDigit_of_digitValue? {base digit : Nat} {c : Char} (hbase : base ≤ 10)
    (h : digitValue? base c = some digit) : c.isDigit = true := by
  rcases digit_cases (by omega) h with hdigit | ⟨hmore, -⟩
  · exact hdigit
  · omega

/-- A character of an integer constant, but for those of its suffix. -/
private structure IsBodyChar (c : Char) : Prop where
  integer : isIntegerChar c = true
  word : isWordChar c = true
  noSuffix : isSuffixChar c = false
  noSign : c ≠ '-' ∧ c ≠ '+'

private theorem isBodyChar_of_isDigit {c : Char} (h : c.isDigit = true) : IsBodyChar c where
  integer := by simp [isIntegerChar, h]
  word := by simp [isWordChar, Char.isAlphanum, h]
  noSuffix := not_suffix_of_isDigit h
  noSign := by constructor <;> rintro rfl <;> exact absurd h (by decide)

private theorem isBodyChar_of_digitValue? {base digit : Nat} {c : Char} (hbase : base ≤ 16)
    (h : digitValue? base c = some digit) : IsBodyChar c := by
  rcases digit_cases hbase h with hdigit | ⟨-, hletter⟩
  · exact isBodyChar_of_isDigit hdigit
  · -- of the letters there are few enough to look at each
    have hletters : "abcdefABCDEF".toList.all (fun c =>
        isIntegerChar c && isWordChar c && !isSuffixChar c && (c ≠ '-' && c ≠ '+')) = true := by decide
    have hcode : 97 ≤ c.toNat ∧ c.toNat ≤ 102 ∨ 65 ≤ c.toNat ∧ c.toNat ≤ 70 := hletter
    have hmem : c ∈ "abcdefABCDEF".toList := by
      have hcodes : ∀ code ∈ [97, 98, 99, 100, 101, 102, 65, 66, 67, 68, 69, 70],
          Char.ofNat code ∈ "abcdefABCDEF".toList := by decide
      rw [← Char.ofNat_toNat c]
      refine hcodes c.toNat ?_
      simp only [List.mem_cons, List.not_mem_nil, or_false]
      omega
    have hletter := List.all_eq_true.mp hletters c hmem
    simp only [Bool.and_eq_true, Bool.not_eq_true', decide_eq_true_eq] at hletter
    obtain ⟨⟨⟨hinteger, hword⟩, hsuffix⟩, hsign⟩ := hletter
    exact ⟨hinteger, hword, hsuffix, hsign⟩

private theorem isBodyChar_of_isMagnitude {chars : List Char} {n : Nat} (h : IsMagnitude chars n) :
    ∀ c ∈ chars, IsBodyChar c := by
  have hall : ∀ {base n : Nat} {digits : List Char}, base ≤ 16 → digitsValue? base digits = some n →
      ∀ c ∈ digits, IsBodyChar c := by
    intro base n digits hbase hdigits c hc
    obtain ⟨digit, hdigit⟩ := exists_digitValue?_of_mem hdigits c hc
    exact isBodyChar_of_digitValue? hbase hdigit
  have hzero : IsBodyChar '0' := isBodyChar_of_isDigit rfl
  cases h with
  | decimal _ _ hdigits => exact hall (by decide) hdigits
  | octal hdigits => exact List.forall_mem_cons.mpr ⟨hzero, hall (by decide) hdigits⟩
  | @hexadecimal mark digits _ hmark _ hdigits =>
    have hmarked : IsBodyChar mark := by
      simp only [List.mem_cons, List.not_mem_nil, or_false] at hmark
      rcases hmark with rfl | rfl <;> exact ⟨by decide, by decide, by decide, by decide⟩
    rw [List.forall_mem_cons, List.forall_mem_cons]
    exact ⟨hzero, hmarked, hall (by decide) hdigits⟩

private theorem eq_or_toNat_of_toLower {c d : Char} (h : c.toLower = d) : c = d ∨ c.toNat + 32 = d.toNat := by
  unfold Char.toLower at h
  split at h
  · rename_i hupper
    have hlast : c.val.toNat ≤ 90 := hupper.2
    refine Or.inr ?_
    rw [← h]
    change c.val.toNat + 32 = (c.val + 32).toNat
    rw [UInt32.toNat_add]
    change c.val.toNat + 32 = (c.val.toNat + 32) % 4294967296
    omega
  · exact Or.inl h

/-- The letters of a suffix, in either case. -/
private theorem suffixChar_of_mem {suffix : List Char} (h : suffix = [] ∨ asciiLower suffix ∈ intSuffixes) :
    ∀ c ∈ suffix, isSuffixChar c = true ∧ isIntegerChar c = false := by
  have hletters : ∀ text ∈ intSuffixes, text.toList.all (['u', 'l', 'z'].contains ·) = true := by decide
  have hchars : "uUlLzZ".toList.all (fun c => isSuffixChar c && !isIntegerChar c) = true := by decide
  intro c hc
  suffices hmem : c ∈ "uUlLzZ".toList by simpa using List.all_eq_true.mp hchars c hmem
  rcases h with rfl | h
  · cases hc
  · have hlower := List.all_eq_true.mp (hletters _ h) c.toLower (by
      rw [asciiLower, String.toList_ofList]
      exact List.mem_map_of_mem hc)
    have hsame : ∀ {d : Char}, c.toNat = d.toNat → c = d := Char.toNat_inj.mp
    simp only [List.contains_iff_mem, List.mem_cons, List.not_mem_nil, or_false] at hlower
    rcases hlower with hlower | hlower | hlower <;> rcases eq_or_toNat_of_toLower hlower with rfl | hcode
    · decide
    · rw [hsame (d := 'U') (by simpa using hcode)]
      decide
    · decide
    · rw [hsame (d := 'L') (by simpa using hcode)]
      decide
    · decide
    · rw [hsame (d := 'Z') (by simpa using hcode)]
      decide

/-- An integer constant is a numeric one. -/
theorem isNumber_of_isInteger {chars : List Char} {n : Nat} (h : IsInteger chars n) : IsNumber chars := by
  obtain ⟨magnitude, suffix, rfl, hmagnitude, hsuffix⟩ := h
  have hletters : ∀ c ∈ "uUlLzZ".toList, isWordChar c = true := List.all_eq_true.mp (by decide)
  have hword : ∀ c ∈ magnitude ++ suffix, isWordChar c = true := by
    rw [List.forall_mem_append]
    refine ⟨fun c hc => (isBodyChar_of_isMagnitude hmagnitude c hc).word, fun c hc => hletters c ?_⟩
    simpa [isSuffixChar] using (suffixChar_of_mem hsuffix c hc).1
  obtain ⟨c, rest, rfl, hc⟩ : ∃ c rest, magnitude = c :: rest ∧ c.isDigit = true := by
    cases hmagnitude with
    | decimal hne _ hvalue =>
      obtain ⟨c, rest, rfl⟩ := List.exists_cons_of_ne_nil hne
      obtain ⟨digit, hdigit⟩ := exists_digitValue?_of_mem hvalue c (List.mem_cons_self ..)
      exact ⟨c, rest, rfl, isDigit_of_digitValue? (by decide) hdigit⟩
    | octal _ => exact ⟨_, _, rfl, rfl⟩
    | hexadecimal _ _ _ => exact ⟨_, _, rfl, rfl⟩
  rw [List.cons_append, List.forall_mem_cons] at hword
  exact ⟨c, rest ++ suffix, rfl, by simp [isNumberStart, hc], isNumberTail_word hword.2⟩

theorem isMagnitude_toDigits (n : Nat) : IsMagnitude (Nat.toDigits 10 n) n := by
  by_cases hzero : n = 0
  · rw [hzero, Nat.toDigits_of_lt_base (by decide)]
    exact .octal rfl
  · exact .decimal Nat.toDigits_ne_nil (fun hhead => hzero (head?_toDigits hhead)) (digitsValue?_toDigits n)

/-- A number in decimal notation is an integer constant. -/
theorem isInteger_toString (n : Nat) : IsInteger (toString n).toList n :=
  ⟨Nat.toDigits 10 n, [], by simp [Nat.toList_repr], isMagnitude_toDigits n, .inl rfl⟩

/-! ### Suffixes -/

private theorem dropIntSuffix_magnitude {magnitude suffix : List Char} {n : Nat} (h : IsMagnitude magnitude n)
    (hsuffix : suffix = [] ∨ asciiLower suffix ∈ intSuffixes) : dropIntSuffix (magnitude ++ suffix) = magnitude := by
  have hbody : ∀ c ∈ magnitude, isIntegerChar c = true := fun c hc => (isBodyChar_of_isMagnitude h c hc).integer
  have hne : magnitude ≠ [] := by cases h <;> simp_all
  have htake : suffix.takeWhile isIntegerChar = [] ∧ suffix.dropWhile isIntegerChar = suffix := by
    cases suffix with
    | nil => exact ⟨rfl, rfl⟩
    | cons c rest =>
      have hc := (suffixChar_of_mem hsuffix c (List.mem_cons_self ..)).2
      simp [hc]
  rw [dropIntSuffix, List.takeWhile_append_of_pos hbody, List.dropWhile_append_of_pos hbody, htake.1, htake.2,
    List.append_nil]
  rcases hsuffix with rfl | hsuffix
  · simp
  · simp [hne, hsuffix]

private theorem trimSuffix_magnitude {magnitude suffix : List Char} {n : Nat} (h : IsMagnitude magnitude n)
    (hsuffix : suffix = [] ∨ asciiLower suffix ∈ intSuffixes) : trimSuffix (magnitude ++ suffix) = magnitude := by
  have hdropped : ∀ c ∈ suffix.reverse, isSuffixChar c = true :=
    fun c hc => (suffixChar_of_mem hsuffix c (List.mem_reverse.mp hc)).1
  have hkept : trimSuffix magnitude = magnitude :=
    trimSuffix_eq fun c hc => (isBodyChar_of_isMagnitude h c hc).noSuffix
  rw [trimSuffix] at hkept ⊢
  rw [List.reverse_append, List.dropWhile_append_of_pos hdropped, hkept]

private theorem dropFloatSuffix_magnitude (type : String) {magnitude : List Char} {n : Nat}
    (h : IsMagnitude magnitude n) : dropFloatSuffix type magnitude = magnitude := by
  have hdigits : (∀ c ∈ magnitude, c.isDigit = true) → dropFloatSuffix type magnitude = magnitude := by
    intro hdigits
    have hlast : ∀ c, c.isDigit = false → magnitude.getLast? ≠ some c := by
      intro c hc hlast
      rw [hdigits c (List.mem_of_getLast? hlast)] at hc
      cases hc
    simp [dropFloatSuffix, hlast 'f' (by decide), hlast 'F' (by decide)]
  have hall : ∀ {base n : Nat} {digits : List Char}, base ≤ 10 → digitsValue? base digits = some n →
      ∀ c ∈ digits, c.isDigit = true := by
    intro base n digits hbase hvalue c hc
    obtain ⟨digit, hdigit⟩ := exists_digitValue?_of_mem hvalue c hc
    exact isDigit_of_digitValue? hbase hdigit
  cases h with
  | decimal _ _ hvalue => exact hdigits (hall (by decide) hvalue)
  | octal hvalue => exact hdigits (List.forall_mem_cons.mpr ⟨rfl, hall (by decide) hvalue⟩)
  | @hexadecimal mark digits _ hmark _ _ =>
    -- the `f` at the end of a hexadecimal number is a digit
    have hhex : isHex ('0' :: mark :: digits) = true := by
      simp only [List.mem_cons, List.not_mem_nil, or_false] at hmark
      rcases hmark with rfl | rfl <;> rfl
    simp [dropFloatSuffix, hhex]

/-! ### Values -/

private theorem isOctal_iff {digit : Char} {rest : List Char} {n : Nat} (h : digitsValue? 8 (digit :: rest) = some n) :
    digit.isDigit = true ∧ rest.all Char.isDigit = true := by
  have hall : ∀ c ∈ digit :: rest, c.isDigit = true := by
    intro c hc
    obtain ⟨value, hvalue⟩ := exists_digitValue?_of_mem h c hc
    exact isDigit_of_digitValue? (by decide) hvalue
  obtain ⟨hdigit, hrest⟩ := List.forall_mem_cons.mp hall
  exact ⟨hdigit, List.all_eq_true.mpr hrest⟩

private theorem hostInteger?_markOctal {magnitude : List Char} {n : Nat} (h : IsMagnitude magnitude n) :
    hostInteger? (markOctal magnitude) = some n := by
  cases h with
  | decimal hne hhead hvalue =>
    cases magnitude with
    | nil => exact absurd rfl hne
    | cons c rest =>
      have hc : c ≠ '0' := by simpa using hhead
      have hmarked : markOctal (c :: rest) = c :: rest := by
        unfold markOctal
        split
        · rename_i heq
          cases heq
          exact absurd rfl hc
        · rfl
      rw [hmarked, hostInteger?.eq_2, hostDigits?, if_neg hne, hvalue]
      intro mark digits heq
      cases heq
      exact hc rfl
  | @octal digits _ hvalue =>
    cases digits with
    | nil =>
      rw [digitsValue?_nil] at hvalue
      cases hvalue
      decide
    | cons digit rest =>
      obtain ⟨hdigit, hrest⟩ := isOctal_iff hvalue
      have hmarked : markOctal ('0' :: digit :: rest) = '0' :: 'o' :: digit :: rest := by
        simp only [markOctal, List.all_cons, hdigit, hrest, Bool.and_self, if_true]
      rw [hmarked, hostInteger?.eq_1]
      simp [hostDigits?, hvalue]
  | @hexadecimal mark digits _ hmark hne hvalue =>
    have hdigit : mark.isDigit = false := by
      simp only [List.mem_cons, List.not_mem_nil, or_false] at hmark
      rcases hmark with rfl | rfl <;> rfl
    have hmarked : markOctal ('0' :: mark :: digits) = '0' :: mark :: digits := by
      simp [markOctal, hdigit]
    rw [hmarked, hostInteger?.eq_1, if_pos hmark, hostDigits?, if_neg hne, hvalue]

/-- The text of an integer constant is a literal of its value. -/
theorem hostInteger?_literalText (type : String) {value : String} {n : Nat} (h : IsInteger value.toList n) :
    hostInteger? (literalText type value).toList = some n := by
  obtain ⟨magnitude, suffix, hvalue, hmagnitude, hsuffix⟩ := h
  rw [literalText, String.toList_ofList, hvalue, dropIntSuffix_magnitude hmagnitude hsuffix,
    dropFloatSuffix_magnitude type hmagnitude, hostInteger?_markOctal hmagnitude]

/-- The text of a number in decimal notation is this notation. -/
theorem literalText_toString (type : String) (n : Nat) : literalText type (toString n) = toString n := by
  have hdigits : (toString n).toList = Nat.toDigits 10 n := by simp [Nat.toList_repr]
  have hsuffix : dropIntSuffix (Nat.toDigits 10 n) = Nat.toDigits 10 n := by
    have hmagnitude := dropIntSuffix_magnitude (isMagnitude_toDigits n) (.inl rfl)
    rwa [List.append_nil] at hmagnitude
  have hoctal : markOctal (Nat.toDigits 10 n) = Nat.toDigits 10 n := by
    unfold markOctal
    split
    · exact absurd ‹_› (toDigits_ne_marked n _ _)
    · rfl
  rw [literalText, hdigits, hsuffix, dropFloatSuffix_magnitude type (isMagnitude_toDigits n), hoctal, ← hdigits,
    String.ofList_toList]

theorem hostInteger?_toString (n : Nat) : hostInteger? (toString n).toList = some n := by
  rw [← literalText_toString "int" n]
  exact hostInteger?_literalText "int" (isInteger_toString n)

private theorem integerValue?_eq {base n : Nat} {digits : List Char} (hbase : base ≤ 16) (hne : digits ≠ [])
    (h : digitsValue? base digits = some n) : integerValue? base digits = int64? n := by
  have hsign : ∀ {c : Char} {rest : List Char}, digits = c :: rest → c ≠ '-' ∧ c ≠ '+' := by
    rintro c rest rfl
    obtain ⟨digit, hdigit⟩ := exists_digitValue?_of_mem h c (List.mem_cons_self ..)
    exact (isBodyChar_of_digitValue? hbase hdigit).noSign
  rw [integerValue?, if_neg hne, h, Option.bind_eq_bind, Option.bind_some]
  · exact congrArg int64? (if_neg Bool.false_ne_true)
  · exact fun rest heq => (hsign heq).1 rfl
  · exact fun rest heq => (hsign heq).2 rfl

/-- An integer constant of C has its value for the output if that fits 64 bits, and none otherwise. -/
theorem intValue?_of_isInteger {type value : String} {n : Nat}
    (htype : containsPart "int".toList type.toList = true) (h : IsInteger value.toList n) :
    (Node.constant type value).intValue? = int64? n := by
  obtain ⟨magnitude, suffix, hvalue, hmagnitude, hsuffix⟩ := h
  rw [Node.intValue?, if_pos htype, hvalue, integerText?, trimSuffix_magnitude hmagnitude hsuffix]
  cases hmagnitude with
  | decimal hne hhead hdigits =>
    have hzero : ∀ c rest, magnitude ≠ '0' :: c :: rest := by
      rintro c rest rfl
      exact hhead rfl
    split
    · exact absurd rfl (hzero 'x' _)
    · exact absurd rfl (hzero 'X' _)
    · exact absurd rfl (hzero _ _)
    · exact integerValue?_eq (by decide) hne hdigits
  | @octal digits _ hdigits =>
    cases digits with
    | nil =>
      rw [digitsValue?_nil] at hdigits
      cases hdigits
      decide
    | cons digit rest =>
      have hmark : digit ≠ 'x' ∧ digit ≠ 'X' := by
        have hdigit := (isOctal_iff hdigits).1
        constructor <;> rintro rfl <;> exact absurd hdigit (by decide)
      split
      · rename_i heq
        cases heq
        exact absurd rfl hmark.1
      · rename_i heq
        cases heq
        exact absurd rfl hmark.2
      · rename_i heq
        cases heq
        exact integerValue?_eq (by decide) (List.cons_ne_nil digit rest) hdigits
      · rename_i hother
        exact absurd rfl (hother digit rest)
  | hexadecimal hmark hne hdigits =>
    simp only [List.mem_cons, List.not_mem_nil, or_false] at hmark
    rcases hmark with rfl | rfl <;> exact integerValue?_eq (by decide) hne hdigits

/-- What has a value for the output is an integer constant of C with this value. -/
theorem exists_of_isGenuine {node : Node} {value : Int} (hgenuine : node.IsGenuine) (h : node.intValue? = some value) :
    ∃ type text n, node = .constant type text ∧ containsPart "int".toList type.toList = true ∧
      IsInteger text.toList n ∧ value = n := by
  cases node with
  | constant type text =>
    obtain ⟨n, hinteger⟩ := hgenuine type text rfl (by rw [h]; rfl)
    have htype : containsPart "int".toList type.toList = true := by
      by_contra hother
      rw [Node.intValue?, if_neg hother] at h
      cases h
    rw [intValue?_of_isInteger htype hinteger] at h
    exact ⟨type, text, n, rfl, htype, hinteger, (int64?_eq_some_iff.mp h).2.symm⟩
  | _ => cases h

end StubGen.CUnit
