import Mathlib.Tactic.SplitIfs
import StubGen.DeclFile.Module
import StubGen.Number.Digits

/-!
# Quoted texts

The types and enumerators that are texts are written between single quotes, just as they are.  `readString` reads a
string literal of the host; what is written has the text as its value only if the text is verbatim.

* `readEscape` reads what follows a backslash.  A backslash that escapes nothing stands for itself.
* `readString` takes the literal off the front and gives its code points and what follows it.
* `isVerbatim` texts have no quote, no line break and no escape; `readString_singleQuoted` says that these are all.
-/

namespace StubGen.Host

/-- The code points of a literal's value, and what follows the literal. -/
abbrev Scanned := Option (List Nat × List Char)

/-- The escapes of one letter or mark. -/
def charEscapes : List (Char × Nat) :=
  [('\\', 92), ('\'', 39), ('"', 34), ('a', 7), ('b', 8), ('f', 12), ('n', 10), ('r', 13), ('t', 9), ('v', 11)]

/-- The number of hexadecimal digits after a mark. -/
def hexWidths : List (Char × Nat) := [('x', 2), ('u', 4), ('U', 8)]

def readHex (width : Nat) (chars : List Char) : Scanned := do
  let code ← digitsValue? 16 (chars.take width)
  if width ≤ chars.length ∧ code ≤ 0x10FFFF then some ([code], chars.drop width) else none

def isOctal (c : Char) : Bool := (digitValue? 8 c).isSome

/-- Up to three octal digits. -/
def readOctal (chars : List Char) : Scanned :=
  let digits := (chars.take 3).takeWhile isOctal
  (digitsValue? 8 digits).map fun code => ([code], chars.drop digits.length)

/-- Whether a character may stand in the name of a character. -/
def isNameMark (c : Char) : Bool := c.isAlphanum || c = ' ' || c = '-'

/-- The name of a character in braces. -/
def readNamed (named : String → Option Nat) : List Char → Scanned
  | '\x7b' :: rest =>
    match rest.dropWhile isNameMark with
    | '\x7d' :: more => (named (String.ofList (rest.takeWhile isNameMark))).map fun code => ([code], more)
    | _ => none
  | _ => none

/-- What a backslash and these characters stand for; `named` has the names of characters. -/
def readEscape (named : String → Option Nat) : List Char → Scanned
  | [] => none
  | c :: rest =>
    if c = '\x00' then none
    else if c = '\n' then some ([], rest)
    else if c = '\r' then some ([], if rest.head? = some '\n' then rest.tail else rest)
    else if c = 'N' then readNamed named rest
    else if isOctal c then readOctal (c :: rest)
    else
      match charEscapes.lookup c, hexWidths.lookup c with
      | some code, _ => some ([code], rest)
      | none, some width => readHex width rest
      | none, none => some (['\\'.toNat, c.toNat], rest)

/-- Whether something else than itself stands for a backslash before the character. -/
def isEscape (c : Char) : Bool :=
  c ∈ ['\x00', '\n', '\r', 'N'] || isOctal c || (charEscapes.lookup c).isSome ||
    (hexWidths.lookup c).isSome

variable {named : String → Option Nat} {c : Char} {chars rest more : List Char} {codes value : List Nat}

theorem readEscape_of_not (h : isEscape c = false) :
    readEscape named (c :: rest) = some (['\\'.toNat, c.toNat], rest) := by
  simp only [isEscape, Bool.or_eq_false_iff, decide_eq_false_iff_not, List.mem_cons, List.not_mem_nil, or_false,
    not_or, Option.isSome_eq_false_iff, Option.isNone_iff_eq_none] at h
  obtain ⟨⟨⟨⟨hnull, hline, hreturn, hname⟩, hdigit⟩, hchar⟩, hhex⟩ := h
  rw [readEscape, if_neg hnull, if_neg hline, if_neg hreturn, if_neg hname, if_neg (by simp [hdigit]), hchar, hhex]

private theorem length_readHex {width : Nat} (h : readHex width chars = some (codes, more)) :
    codes.length ≤ 1 ∧ more.length ≤ chars.length := by
  obtain ⟨code, -, h⟩ := Option.bind_eq_some_iff.mp h
  split at h
  · cases h
    exact ⟨Nat.le_refl _, List.length_drop ▸ Nat.sub_le ..⟩
  · cases h

private theorem length_readNamed (h : readNamed named chars = some (codes, more)) :
    codes.length ≤ 1 ∧ more.length ≤ chars.length := by
  unfold readNamed at h
  split at h
  · rename_i rest
    split at h
    · rename_i others hclose
      obtain ⟨code, -, heq⟩ := Option.map_eq_some_iff.mp h
      cases heq
      have hdrop := (List.dropWhile_suffix (p := isNameMark) (l := rest)).length_le
      rw [hclose] at hdrop
      exact ⟨Nat.le_refl _, by simp only [List.length_cons] at hdrop ⊢; omega⟩
    · cases h
  · cases h

private theorem length_readOctal (hc : isOctal c = true)
    (h : readOctal (c :: rest) = some (codes, more)) : codes.length ≤ 1 ∧ more.length ≤ rest.length := by
  obtain ⟨code, -, heq⟩ := Option.map_eq_some_iff.mp h
  cases heq
  refine ⟨Nat.le_refl _, ?_⟩
  rw [List.take_succ_cons, List.takeWhile_cons_of_pos hc, List.length_cons, List.drop_succ_cons, List.length_drop]
  exact Nat.sub_le ..

/-- An escape stands for one code point at the most. -/
private theorem length_readEscape (h : readEscape named (c :: rest) = some (codes, more)) :
    more.length ≤ rest.length ∧ (codes.length ≤ 1 ∨ isEscape c = false ∧ codes.length = 2) := by
  by_cases hc : isEscape c = false
  · rw [readEscape_of_not hc] at h
    cases h
    exact ⟨Nat.le_refl _, Or.inr ⟨hc, rfl⟩⟩
  · rw [readEscape] at h
    split_ifs at h with hnull hline hreturn hpair hname hdigit
    · cases h
      exact ⟨Nat.le_refl _, Or.inl (Nat.zero_le _)⟩
    · cases h
      exact ⟨List.length_tail ▸ Nat.sub_le .., Or.inl (Nat.zero_le _)⟩
    · cases h
      exact ⟨Nat.le_refl _, Or.inl (Nat.zero_le _)⟩
    · have hlength := length_readNamed h
      exact ⟨hlength.2, Or.inl hlength.1⟩
    · have hlength := length_readOctal hdigit h
      exact ⟨hlength.2, Or.inl hlength.1⟩
    · split at h
      · cases h
        exact ⟨Nat.le_refl _, Or.inl (Nat.le_refl _)⟩
      · have hlength := length_readHex h
        exact ⟨hlength.2, Or.inl hlength.1⟩
      · rename_i hchar hhex
        simp [isEscape, hnull, hline, hreturn, hname, hdigit, hchar, hhex] at hc

private theorem length_rest_of_readEscape (h : readEscape named chars = some (codes, more)) :
    more.length < chars.length := by
  cases chars with
  | nil => cases h
  | cons c rest => exact Nat.lt_succ_of_le (length_readEscape h).1

/-- The rest after the closing quotes, if they come next. -/
def closed? : Bool → List Char → Option (List Char)
  | true, '\'' :: '\'' :: '\'' :: rest => some rest
  | false, '\'' :: rest => some rest
  | _, _ => none

/-- What a character that is neither escaped nor closing stands for.  Only between three quotes may lines end. -/
def plainCodes? (long : Bool) (c : Char) (rest : List Char) : Option (List Nat) :=
  if c = '\x00' then none
  else if c = '\n' ∨ c = '\r' then
    if long then some (if c = '\r' ∧ rest.head? = some '\n' then [] else ['\n'.toNat]) else none
  else some [c.toNat]

/-- Reads up to the closing quotes. -/
def readBody (named : String → Option Nat) (long : Bool) (chars : List Char) : Scanned :=
  match closed? long chars with
  | some rest => some ([], rest)
  | none =>
    match chars with
    | [] => none
    | '\\' :: rest =>
      match _h : readEscape named rest with
      | none => none
      | some (codes, more) => (readBody named long more).map fun (value, others) => (codes ++ value, others)
    | c :: rest => do
      let codes ← plainCodes? long c rest
      let (value, others) ← readBody named long rest
      return (codes ++ value, others)
termination_by chars.length
decreasing_by
  · exact Nat.lt_succ_of_lt (length_rest_of_readEscape ‹_›)
  · simp

/-- Reads a string literal. -/
def readString (named : String → Option Nat) : List Char → Scanned
  | '\'' :: '\'' :: '\'' :: rest => readBody named true rest
  | '\'' :: rest => readBody named false rest
  | _ => none

private theorem length_closed? {long : Bool} (h : closed? long chars = some rest) :
    rest.length + (if long then 3 else 1) = chars.length := by
  unfold closed? at h
  split at h <;> cases h <;> rfl

/-- A literal is longer than its value. -/
theorem length_readBody {long : Bool} (h : readBody named long chars = some (value, rest)) :
    value.length + rest.length + (if long then 3 else 1) ≤ chars.length := by
  fun_induction readBody named long chars generalizing value with
  | case1 chars others hclosed =>
    cases h
    rw [List.length_nil, Nat.zero_add]
    exact Nat.le_of_eq (length_closed? hclosed)
  | case2 => cases h
  | case3 => cases h
  | case4 others codes more hescape hclosed ih =>
    obtain ⟨⟨tail, last⟩, htail, heq⟩ := Option.map_eq_some_iff.mp h
    cases heq
    have hbound := ih htail
    have hcodes : codes.length + more.length ≤ others.length + 1 := by
      cases others with
      | nil => cases hescape
      | cons c others =>
        rw [List.length_cons]
        obtain ⟨hmore, hcodes⟩ := length_readEscape hescape
        omega
    rw [List.length_append, List.length_cons]
    omega
  | case5 c others hclosed hbackslash ih =>
    obtain ⟨codes, hcodes, h⟩ := Option.bind_eq_some_iff.mp h
    obtain ⟨⟨tail, last⟩, htail, h⟩ := Option.bind_eq_some_iff.mp h
    cases h
    have hbound := ih htail
    have hone : codes.length ≤ 1 := by
      unfold plainCodes? at hcodes
      split_ifs at hcodes <;> cases hcodes <;> simp
    rw [List.length_append, List.length_cons]
    omega

/-! ### Texts that stand for themselves -/

/-- Whether a text has nothing that means something else between quotes. -/
def isVerbatim : List Char → Bool
  | [] => true
  | ['\\'] => false
  | '\\' :: c :: rest => !isEscape c && isVerbatim rest
  | c :: rest => c ∉ ['\'', '\n', '\r', '\x00'] && isVerbatim rest

private theorem map_append_eq_some {scanned : Scanned} (codes : List Nat) :
    (scanned.map fun read => (codes ++ read.1, read.2)) = some (codes ++ value, rest) ↔
      scanned = some (value, rest) := by
  cases scanned <;> simp [Prod.ext_iff]

private theorem readBody_close : readBody named false ('\'' :: rest) = some ([], rest) := by
  rw [readBody.eq_def]
  rfl

private theorem readBody_escape : readBody named false ('\\' :: rest) =
    (readEscape named rest).bind fun scanned =>
      (readBody named false scanned.2).map fun read => (scanned.1 ++ read.1, read.2) := by
  have hclosed : closed? false ('\\' :: rest) = none := rfl
  rw [readBody, hclosed]
  dsimp only
  split <;> rename_i hescape <;> rw [hescape] <;> rfl

private theorem readBody_plain (hquote : c ≠ '\'') (hbackslash : c ≠ '\\') : readBody named false (c :: rest) =
    (plainCodes? false c rest).bind fun codes =>
      (readBody named false rest).map fun read => (codes ++ read.1, read.2) := by
  have hclosed : closed? false (c :: rest) = none := by
    simp [closed?, hquote]
  rw [readBody, hclosed]
  · simp only [Option.map_eq_bind]
    rfl
  · exact hbackslash

private theorem length_readBody_escape (hc : isEscape c = true)
    (h : readBody named false ('\\' :: c :: chars) = some (value, rest)) :
    value.length + rest.length ≤ chars.length := by
  rw [readBody_escape] at h
  obtain ⟨⟨codes, more⟩, hescape, h⟩ := Option.bind_eq_some_iff.mp h
  obtain ⟨⟨tail, last⟩, htail, heq⟩ := Option.map_eq_some_iff.mp h
  cases heq
  have hbound : tail.length + last.length + 1 ≤ more.length := length_readBody htail
  obtain ⟨hmore, hcodes⟩ := length_readEscape hescape
  rcases hcodes with hcodes | ⟨hother, -⟩
  · rw [List.length_append]
    dsimp only
    omega
  · rw [hc] at hother
    cases hother

/-- A text is read as itself between quotes just if it is verbatim. -/
private theorem readBody_iff (text rest : List Char) :
    readBody named false (text ++ '\'' :: rest) = some (text.map Char.toNat, rest) ↔ isVerbatim text = true := by
  fun_induction isVerbatim text with
  | case1 => exact iff_of_true readBody_close rfl
  | case2 =>
    refine iff_of_false (fun hread => ?_) Bool.false_ne_true
    have hlength := length_readBody_escape (by decide) hread
    rw [List.length_map, List.length_singleton] at hlength
    omega
  | case3 c text ih =>
    have hchars : '\\' :: c :: text ++ '\'' :: rest = '\\' :: c :: (text ++ '\'' :: rest) := rfl
    rw [hchars]
    cases hc : isEscape c with
    | true =>
      refine iff_of_false (fun hread => ?_) Bool.false_ne_true
      have hlength := length_readBody_escape hc hread
      rw [List.length_map, List.length_append] at hlength
      simp only [List.length_cons] at hlength
      omega
    | false =>
      rw [Bool.not_false, Bool.true_and, ← ih, readBody_escape, readEscape_of_not hc, Option.bind_some]
      exact map_append_eq_some ['\\'.toNat, c.toNat]
  | case4 c text hnil hescape ih =>
    have hbackslash : c ≠ '\\' := by
      intro heq
      cases text with
      | nil => exact hnil heq rfl
      | cons d text => exact hescape d text heq rfl
    rw [List.cons_append, Bool.and_eq_true, ← ih]
    by_cases hquote : c = '\''
    · subst hquote
      refine iff_of_false (fun hread => ?_) (by simp)
      rw [readBody_close] at hread
      cases hread
    rw [readBody_plain hquote hbackslash, plainCodes?, decide_eq_true_iff]
    by_cases hends : c ∈ ['\n', '\r', '\x00']
    · refine iff_of_false (fun hread => ?_) (fun hplain => hplain.1 (List.mem_cons_of_mem _ hends))
      simp only [List.mem_cons, List.not_mem_nil, or_false] at hends
      rcases hends with rfl | rfl | rfl <;> cases hread
    · have hplain : c ∉ ['\'', '\n', '\r', '\x00'] := fun hmem => (List.mem_cons.mp hmem).elim hquote hends
      simp only [List.mem_cons, List.not_mem_nil, or_false, not_or] at hends
      rw [if_neg hends.2.2, if_neg (not_or.mpr ⟨hends.1, hends.2.1⟩), and_iff_right hplain]
      exact map_append_eq_some [c.toNat]

/-- A text between single quotes. -/
def singleQuoted (text : String) : String := "'" ++ text ++ "'"

/-- What is written between quotes is read as it stands just if it is verbatim.  Another quote behind it would make it
the start of a literal of several lines. -/
theorem readString_singleQuoted (named : String → Option Nat) (text : String) {rest : List Char}
    (hrest : rest.head? ≠ some '\'') :
    readString named ((singleQuoted text).toList ++ rest) = some (text.toList.map Char.toNat, rest) ↔
      isVerbatim text.toList = true := by
  have hchars : (singleQuoted text).toList ++ rest = '\'' :: (text.toList ++ '\'' :: rest) := by
    simp [singleQuoted]
  rw [hchars]
  unfold readString
  split
  · rename_i more heq
    replace heq := (List.cons.inj heq).2
    cases htext : text.toList with
    | nil =>
      rw [htext] at heq
      exact absurd (by rw [(List.cons.inj heq).2, List.head?_cons]) hrest
    | cons c chars =>
      rw [htext, List.cons_append] at heq
      obtain ⟨rfl, hmore⟩ := List.cons.inj heq
      refine iff_of_false (fun hread => ?_) (by simp [isVerbatim])
      have hbound := length_readBody hread
      have hlength := congrArg List.length hmore
      rw [List.length_append] at hlength
      simp only [List.length_map, List.length_cons, if_true] at hbound hlength
      omega
  · rename_i more _ heq
    rw [← (List.cons.inj heq).2]
    exact readBody_iff text.toList rest
  · rename_i hshort
    exact absurd rfl (hshort _)

end StubGen.Host

namespace StubGen.DeclFile

open Host

/-- Types and enumerators that are texts are written between quotes as they are.  Before a bracket or the end of a line
the host reads them as these texts just if they are verbatim. -/
theorem readString_written (named : String → Option Nat) (style : Style) (name text : String) (count : Nat) :
    (typeText style (.literal (.text text)) count).2 = "Literal[" ++ singleQuoted text ++ "]" ∧
      (enumeratorCode ⟨.ident name, some (.text text)⟩ count).2 =
        [.line (escapeName name ++ " = " ++ singleQuoted text)] ∧
      ∀ rest : List Char, rest.head? ≠ some '\'' →
        (readString named ((singleQuoted text).toList ++ rest) = some (text.toList.map Char.toNat, rest) ↔
          isVerbatim text.toList = true) := by
  refine ⟨?_, ?_, fun rest hrest => readString_singleQuoted named text hrest⟩
  · have htext : (typeText style (.literal (.text text)) count).2 = "Literal" ++ "['" ++ text ++ "']" := rfl
    rw [htext, singleQuoted, ← String.toList_inj]
    simp
  · have hvalue : (enumeratorCode ⟨.ident name, some (.text text)⟩ count).2 =
        [.line (escapeName name ++ " = " ++ ("'" ++ text ++ "'"))] := rfl
    rw [hvalue, singleQuoted]

theorem readString_path :
    (typeText (.ofOptions {}) (.literal (.text "C:\\Windows")) 0).2 = "Literal['C:\\Windows']" ∧
      readString (fun _ => none) "'C:\\Windows']".toList = some ("C:\\Windows".toList.map Char.toNat, [']']) := by
  obtain ⟨htext, -, hread⟩ := readString_written (fun _ => none) (.ofOptions {}) "A" "C:\\Windows" 0
  exact ⟨htext, (hread [']'] (by decide)).mpr (by decide)⟩

/-- A quote ends the literal early, and a backslash may change its value. -/
theorem readString_escapes :
    (enumeratorCode ⟨.ident "A", some (.text "it's")⟩ 0).2 = [.line "A = 'it's'"] ∧
      readString (fun _ => none) "'it's'".toList = some ("it".toList.map Char.toNat, "s'".toList) ∧
      (typeText (.ofOptions {}) (.literal (.text "C:\\new")) 0).2 = "Literal['C:\\new']" ∧
      readString (fun _ => none) "'C:\\new']".toList = some ("C:\new".toList.map Char.toNat, [']']) := by
  refine ⟨rfl, ?_, rfl, ?_⟩
  · decide +kernel
  · decide +kernel

end StubGen.DeclFile
