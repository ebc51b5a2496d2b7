import Mathlib.Data.Nat.Bitwise
import Mathlib.Data.List.Basic
import Mathlib.Data.List.TakeWhile
import StubGen.Proofs.Name.Capital

/-!
# Names cased twice

Casing a name that has been cased changes nothing, be it escaped or not, and no name that comes out is a reserved word
(`recasing_idempotent`).

* A table is `CaseRun.Settled` if no form that it gives has another form.  The forms and the characters that have one
  are compared as sets of bits, since there are too many for a comparison in pairs.
* `lowerChars_of_mem` and `upperChars_of_mem` say so of the forms of characters, those of several characters included.
-/

namespace StubGen

/-! ### Sets of bits -/

/-- The number with the bits of some codes. -/
def maskOf (codes : List Nat) : Nat := codes.foldr (fun code mask => mask ||| 2 ^ code) 0

/-- The number with the bits of the codes of all lists. -/
def maskAll (lists : List (List Nat)) : Nat := lists.foldr (fun codes mask => maskOf codes ||| mask) 0

theorem testBit_maskOf {codes : List Nat} {code : Nat} (h : code ∈ codes) : (maskOf codes).testBit code = true := by
  induction codes with
  | nil => cases h
  | cons first rest ih =>
    have hmask : maskOf (first :: rest) = maskOf rest ||| 2 ^ first := rfl
    rw [hmask, Nat.testBit_or, Bool.or_eq_true]
    rcases List.mem_cons.mp h with rfl | h
    · exact Or.inr Nat.testBit_two_pow_self
    · exact Or.inl (ih h)

theorem testBit_maskAll {lists : List (List Nat)} {codes : List Nat} {code : Nat} (hcodes : codes ∈ lists)
    (h : code ∈ codes) : (maskAll lists).testBit code = true := by
  induction lists with
  | nil => cases hcodes
  | cons first rest ih =>
    have hmask : maskAll (first :: rest) = maskOf first ||| maskAll rest := rfl
    rw [hmask, Nat.testBit_or, Bool.or_eq_true]
    rcases List.mem_cons.mp hcodes with rfl | hcodes
    · exact Or.inl (testBit_maskOf h)
    · exact Or.inr (ih hcodes)

/-- Lists without a common bit have no common code. -/
theorem notMem_of_masks {first second : List (List Nat)} (h : maskAll first &&& maskAll second = 0)
    {codes others : List Nat} {code : Nat} (hcodes : codes ∈ first) (hcode : code ∈ codes) (hothers : others ∈ second) :
    code ∉ others := by
  intro hother
  have hbit : (maskAll first &&& maskAll second).testBit code = true := by
    rw [Nat.testBit_and, testBit_maskAll hcodes hcode, testBit_maskAll hothers hother, Bool.and_self]
  rw [h, Nat.zero_testBit] at hbit
  cases hbit

/-! ### Settled tables -/

namespace CaseRun

/-- The code points that the run maps. -/
def codes (run : CaseRun) : List Nat :=
  (List.range ((run.last - run.first) / run.stride + 1)).map fun step => run.first + run.stride * step

/-- The forms that the run gives. -/
def forms (run : CaseRun) : List Nat := run.codes.map run.apply

theorem mem_codes {run : CaseRun} {code : Nat} (h : run.covers code = true) : code ∈ run.codes := by
  rw [covers, decide_eq_true_eq] at h
  obtain ⟨hfirst, hlast, hmod⟩ := h
  refine List.mem_map.mpr ⟨(code - run.first) / run.stride, List.mem_range.mpr ?_, ?_⟩
  · exact Nat.lt_succ_of_le (Nat.div_le_div_right (Nat.sub_le_sub_right hlast run.first))
  · rw [Nat.mul_div_cancel' (Nat.dvd_of_mod_eq_zero hmod)]
    omega

/-- No form of the runs, and none of the `others`, is one of the `keys` or mapped by a run. -/
def Settled (runs : List CaseRun) (others : List (List Nat)) (keys : List Nat) : Prop :=
  maskAll (others ++ runs.map forms) &&& maskAll (keys :: runs.map codes) = 0

instance (runs : List CaseRun) (others : List (List Nat)) (keys : List Nat) : Decidable (Settled runs others keys) :=
  inferInstanceAs (Decidable (_ = _))

namespace Settled

variable {runs : List CaseRun} {others : List (List Nat)} {keys : List Nat}

theorem of_mem (h : Settled runs others keys) {settled : List Nat} {code : Nat}
    (hsettled : settled ∈ others ++ runs.map forms) (hcode : code ∈ settled) :
    code ∉ keys ∧ mapWith runs code = code := by
  refine ⟨notMem_of_masks h hsettled hcode (List.mem_cons_self ..), ?_⟩
  have hnone : runs.find? (·.covers code) = none := by
    refine List.find?_eq_none.mpr fun run hrun hcovers => ?_
    exact notMem_of_masks h hsettled hcode (List.mem_cons_of_mem _ (List.mem_map_of_mem hrun)) (mem_codes hcovers)
  rw [mapWith, hnone]

/-- What is mapped to another code has been mapped for good. -/
theorem of_mapWith (h : Settled runs others keys) (code : Nat) :
    mapWith runs code = code ∨
      mapWith runs code ∉ keys ∧ mapWith runs (mapWith runs code) = mapWith runs code := by
  cases hfind : runs.find? (·.covers code) with
  | none => exact Or.inl (by rw [mapWith, hfind])
  | some run =>
    have hform : mapWith runs code = run.apply code := by rw [mapWith, hfind]
    have hfound := List.find?_some hfind
    have hcovers : run.covers code = true := hfound
    rw [hform]
    exact Or.inr (h.of_mem (List.mem_append_right _ (List.mem_map_of_mem (List.mem_of_find?_eq_some hfind)))
      (List.mem_map_of_mem (mem_codes hcovers)))

theorem mapWith_idem (h : Settled runs others keys) (code : Nat) :
    mapWith runs (mapWith runs code) = mapWith runs code := by
  rcases h.of_mapWith code with hsame | ⟨-, hsame⟩
  · rw [hsame, hsame]
  · exact hsame

theorem eq_of_mapWith_mem (h : Settled runs others keys) {code : Nat} (hkey : mapWith runs code ∈ keys) :
    mapWith runs code = code :=
  (h.of_mapWith code).resolve_right fun hform => hform.1 hkey

end Settled

end CaseRun

/-! ### Characters -/

/-- Both tables are settled.  The lower-case forms of the dotted capital (304) and of the capital sigma are not in the
table; of the upper-case forms, some are of several characters, and no other one is a low line (95).  A number that is
no code point stands for the character 0. -/
private theorem caseRuns_settled : CaseRun.Settled lowerRuns [[0, 105, 775, 962, 963]] [304] ∧
    CaseRun.Settled upperRuns ([0] :: upperSequences.map Prod.snd) (95 :: upperSequences.map Prod.fst) := by
  decide +kernel

theorem lowerChars_eq_singleton {c : Char} (hkey : c.toNat ∉ [304])
    (hform : CaseRun.mapWith lowerRuns c.toNat = c.toNat) : lowerChars c = [c] := by
  have hplain : c ≠ 'İ' := by
    rintro rfl
    exact hkey (List.mem_singleton_self _)
  rw [lowerChars, if_neg hplain, hform, Char.ofNat_toNat]

theorem upperChars_eq_singleton {c : Char} (hkey : c.toNat ∉ upperSequences.map Prod.fst)
    (hform : CaseRun.mapWith upperRuns c.toNat = c.toNat) : upperChars c = [c] := by
  have hsingle : upperSequences.lookup c.toNat = none := by
    rw [Option.eq_none_iff_forall_not_mem]
    exact fun codes hcodes => hkey (List.mem_map_of_mem (mem_upperSequences hcodes))
  rw [upperChars, hsingle, hform, Char.ofNat_toNat]

/-- The characters whose forms are not in the table have settled forms. -/
theorem lowerChars_of_code {c : Char} (h : c.toNat ∈ [0, 105, 775, 962, 963]) : lowerChars c = [c] := by
  obtain ⟨hkey, hform⟩ := caseRuns_settled.1.of_mem (List.mem_cons_self ..) h
  exact lowerChars_eq_singleton hkey hform

theorem upperChars_of_code {c : Char} {codes : List Nat}
    (hcodes : codes ∈ ([0] :: upperSequences.map Prod.snd) ++ upperRuns.map CaseRun.forms) (h : c.toNat ∈ codes) :
    upperChars c = [c] := by
  obtain ⟨hkey, hform⟩ := caseRuns_settled.2.of_mem hcodes h
  exact upperChars_eq_singleton (fun hmem => hkey (List.mem_cons_of_mem _ hmem)) hform

/-- A character of a lower-case form is its own lower-case form. -/
theorem lowerChars_of_mem {c d : Char} (h : d ∈ lowerChars c) : lowerChars d = [d] := by
  unfold lowerChars at h
  split at h
  · refine lowerChars_of_code ?_
    rcases List.mem_pair.mp h with rfl | rfl <;> simp
  · rename_i hc
    rw [List.mem_singleton.mp h]
    rcases toNat_ofNat_or (CaseRun.mapWith lowerRuns c.toNat) with hcode | hnone
    · refine lowerChars_eq_singleton (fun hkey => hc ?_) (by rw [hcode, caseRuns_settled.1.mapWith_idem])
      -- the dotted capital is the form of no character, so it would be `c` itself
      rw [hcode] at hkey
      rw [caseRuns_settled.1.eq_of_mapWith_mem hkey] at hkey
      exact Char.toNat_inj.mp (List.mem_singleton.mp hkey)
    · refine lowerChars_of_code ?_
      rw [hnone]
      exact List.mem_cons_self ..

theorem isAsciiUpper_of_lowerChars {c : Char} (h : lowerChars c = [c]) : isAsciiUpper c = false := by
  have hcapital : ∀ code < 91, 65 ≤ code → lowerChars (Char.ofNat code) ≠ [Char.ofNat code] := by decide
  rw [Bool.eq_false_iff]
  intro hupper
  rw [isAsciiUpper, Bool.and_eq_true, decide_eq_true_eq, decide_eq_true_eq] at hupper
  have hfirst : 65 ≤ c.toNat := hupper.1
  have hlast : c.toNat ≤ 90 := hupper.2
  refine hcapital c.toNat (by omega) hfirst ?_
  rwa [Char.ofNat_toNat]

theorem mem_settled_of_lookup {code : Nat} {codes : List Nat} (h : upperSequences.lookup code = some codes) :
    codes ∈ ([0] :: upperSequences.map Prod.snd) ++ upperRuns.map CaseRun.forms :=
  List.mem_append_left _ (List.mem_cons_of_mem _ (List.mem_map_of_mem (mem_upperSequences h)))

/-- A character of an upper-case form is its own upper-case form. -/
theorem upperChars_of_mem {c d : Char} (h : d ∈ upperChars c) : upperChars d = [d] := by
  have hnull : ∀ d : Char, d.toNat = 0 → upperChars d = [d] := by
    intro d hnone
    refine upperChars_of_code (List.mem_cons_self ..) ?_
    rw [hnone]
    exact List.mem_cons_self ..
  unfold upperChars at h
  split at h
  · rename_i codes hlookup
    obtain ⟨code, hmem, rfl⟩ := List.mem_map.mp h
    rcases toNat_ofNat_or code with hcode | hnone
    · refine upperChars_of_code (mem_settled_of_lookup hlookup) ?_
      rwa [hcode]
    · exact hnull _ hnone
  · rename_i hlookup
    rw [List.mem_singleton.mp h]
    rcases toNat_ofNat_or (CaseRun.mapWith upperRuns c.toNat) with hcode | hnone
    · refine upperChars_eq_singleton (fun hkey => ?_) (by rw [hcode, caseRuns_settled.2.mapWith_idem])
      -- a character with a form of several characters is the form of no other one
      rw [hcode] at hkey
      rw [caseRuns_settled.2.eq_of_mapWith_mem (List.mem_cons_of_mem _ hkey)] at hkey
      obtain ⟨entry, hentry, heq⟩ := List.mem_map.mp hkey
      have hne := List.lookup_eq_none_iff.mp hlookup entry hentry
      simp [heq] at hne
    · exact hnull _ hnone

/-- A low line is the form of itself only. -/
theorem eq_low_of_mem_upperChars {c : Char} (h : '_' ∈ upperChars c) : c = '_' := by
  unfold upperChars at h
  split at h
  · rename_i codes hlookup
    obtain ⟨code, hmem, hlow⟩ := List.mem_map.mp h
    rcases toNat_ofNat_or code with hcode | hnone
    · rw [hlow] at hcode
      rw [← hcode] at hmem
      exact absurd (List.mem_cons_self ..) (caseRuns_settled.2.of_mem (mem_settled_of_lookup hlookup) hmem).1
    · rw [hlow] at hnone
      cases hnone
  · have hlow := List.mem_singleton.mp h
    rcases toNat_ofNat_or (CaseRun.mapWith upperRuns c.toNat) with hcode | hnone
    · rw [← hlow] at hcode
      have hkey : CaseRun.mapWith upperRuns c.toNat ∈ 95 :: upperSequences.map Prod.fst := by
        rw [← hcode]
        exact List.mem_cons_self ..
      rw [← Char.toNat_inj, ← caseRuns_settled.2.eq_of_mapWith_mem hkey, ← hcode]
    · rw [← hlow] at hnone
      cases hnone

/-! ### Names in lower case -/

variable {chars : List Char}

theorem lowerChars_of_mem_lowerText {c : Char} (h : c ∈ lowerText chars) : lowerChars c = [c] := by
  have hfinal : lowerChars 'ς' = ['ς'] := lowerChars_of_code (by simp)
  have hsigma : lowerChars 'σ' = ['σ'] := lowerChars_of_code (by simp)
  have hfrom : ∀ before, c ∈ lowerFrom before chars → lowerChars c = [c] := by
    clear h
    induction chars with
    | nil =>
      intro before h
      cases h
    | cons first rest ih =>
      intro before h
      rw [lowerFrom, List.mem_append] at h
      rcases h with h | h
      · split at h
        · split at h
          · rw [List.mem_singleton.mp h]
            exact hfinal
          · rw [List.mem_singleton.mp h]
            exact hsigma
        · exact lowerChars_of_mem h
      · exact ih (first :: before) h
  exact hfrom [] h

/-- A text of characters that are their own lower-case forms is its own lower-case form. -/
theorem lowerText_eq_self (h : ∀ c ∈ chars, lowerChars c = [c]) : lowerText chars = chars := by
  have hsigma : lowerChars 'Σ' ≠ ['Σ'] := by decide
  have hfrom : ∀ before, lowerFrom before chars = chars := by
    induction chars with
    | nil => exact fun _ => rfl
    | cons first rest ih =>
      intro before
      obtain ⟨hfirst, hrest⟩ := List.forall_mem_cons.mp h
      have hne : first ≠ 'Σ' := by
        rintro rfl
        exact hsigma hfirst
      rw [lowerFrom, if_neg hne, hfirst, ih hrest (first :: before), List.singleton_append]
  exact hfrom []

theorem splitWords_eq_self (h : ∀ c ∈ chars, isAsciiUpper c = false) (place : WordPlace) :
    splitWords place chars = chars := by
  induction chars generalizing place with
  | nil => rw [splitWords]
  | cons first rest ih =>
    obtain ⟨-, hrest⟩ := List.forall_mem_cons.mp h
    have hword : startsWord rest = false := by
      rcases rest with _ | ⟨upper, _ | ⟨lower, others⟩⟩
      · rfl
      · rfl
      · rw [startsWord, hrest upper (List.mem_cons_self ..), Bool.false_and]
    cases place <;> simp [splitWords, hword, ih hrest]

theorem joinLows_eq_self (h : ∀ c ∈ chars, isAsciiUpper c = false) : joinLows chars = chars := by
  induction chars with
  | nil => rfl
  | cons first rest ih =>
    obtain ⟨-, hrest⟩ := List.forall_mem_cons.mp h
    have hcapital : startsLowCapital rest = false := by
      rcases rest with _ | ⟨low, _ | ⟨upper, others⟩⟩
      · rfl
      · rfl
      · simp [startsLowCapital, hrest upper (by simp)]
    simp [joinLows, hcapital, ih hrest]

theorem splitHumps_eq_self (h : ∀ c ∈ chars, isAsciiUpper c = false) : splitHumps chars = chars := by
  induction chars with
  | nil => rfl
  | cons first rest ih =>
    obtain ⟨-, hrest⟩ := List.forall_mem_cons.mp h
    have hcapital : rest.head?.any isAsciiUpper = false := by
      cases rest with
      | nil => rfl
      | cons next others => exact hrest next (List.mem_cons_self ..)
    simp [splitHumps, hcapital, ih hrest]

theorem snakeChars_idem (chars : List Char) : snakeChars (snakeChars chars) = snakeChars chars := by
  by_cases hcased : chars.any CodeSet.uppercase.contains && chars.any CodeSet.lowercase.contains
  · have hsnake : snakeChars chars = lowerText (splitHumps (joinLows (splitWords .between chars))) :=
      if_pos hcased
    have hlower : ∀ c ∈ snakeChars chars, lowerChars c = [c] := by
      rw [hsnake]
      exact fun c hc => lowerChars_of_mem_lowerText hc
    have hcapital : ∀ c ∈ snakeChars chars, isAsciiUpper c = false :=
      fun c hc => isAsciiUpper_of_lowerChars (hlower c hc)
    -- the result may still have a capital outside of ASCII that has no small form
    generalize snakeChars chars = snake at hlower hcapital
    rw [snakeChars, splitWords_eq_self hcapital, joinLows_eq_self hcapital, splitHumps_eq_self hcapital,
      lowerText_eq_self hlower, ite_self]
  · have hkept : snakeChars chars = chars := if_neg hcased
    rw [hkept, hkept]

/-! ### Names with capitals -/

theorem capitalise_eq_self (h : ∀ c ∈ chars.head?, upperChars c = [c]) : capitalise chars = chars := by
  cases chars with
  | nil => rfl
  | cons first rest => rw [capitalise, h first rfl, List.singleton_append]

theorem low_notMem_capitalise (h : '_' ∉ chars) : '_' ∉ capitalise chars := by
  cases chars with
  | nil => exact h
  | cons first rest =>
    rw [List.mem_cons, not_or] at h
    rw [capitalise, List.mem_append, not_or]
    exact ⟨fun hlow => h.1 (eq_low_of_mem_upperChars hlow).symm, h.2⟩

/-- Words that are joined begin as the first of them does, with a character that is its own upper-case form. -/
theorem upperChars_of_head_flatMap {words : List (List Char)} (h : ∀ word ∈ words, word ≠ []) :
    ∀ c ∈ (words.flatMap capitalise).head?, upperChars c = [c] := by
  cases words with
  | nil => simp
  | cons word others =>
    obtain ⟨first, rest, rfl⟩ := List.exists_cons_of_ne_nil (h word (List.mem_cons_self ..))
    intro c hc
    refine upperChars_of_mem (c := first) (List.mem_of_mem_head? ?_)
    rw [List.flatMap_cons, capitalise, List.append_assoc, List.head?_append_of_ne_nil _ (upperChars_ne_nil first)] at hc
    exact hc

theorem low_notMem_of_mem_wordsOf {word : List Char} (h : word ∈ wordsOf chars) : '_' ∉ word := by
  have hsplit := (List.mem_filter.mp h).1
  clear h
  induction chars generalizing word with
  | nil => simp_all
  | cons c rest ih =>
    obtain ⟨first, others, heq⟩ := List.exists_cons_of_ne_nil (List.splitOn_ne_nil '_' rest)
    rw [List.splitOn_cons_eq_if_modifyHead, heq, List.modifyHead_cons] at hsplit
    rw [heq] at ih
    split at hsplit
    · rcases List.mem_cons.mp hsplit with rfl | hsplit
      · exact List.not_mem_nil
      · exact ih hsplit
    · rename_i hc
      rcases List.mem_cons.mp hsplit with rfl | hsplit
      · rw [List.mem_cons, not_or]
        exact ⟨fun hlow => hc (by simp [← hlow]), ih (List.mem_cons_self ..)⟩
      · exact ih (List.mem_cons_of_mem first hsplit)

/-- Characters without a low line are a single word. -/
theorem flatMap_wordsOf (h : '_' ∉ chars) : (wordsOf chars).flatMap capitalise = capitalise chars := by
  rw [wordsOf, List.splitOn_eq_singleton h]
  cases chars with
  | nil => rfl
  | cons first rest => simp

/-- Low lines ahead of a single word that is capitalised. -/
theorem pascalChars_append {lows word : List Char} (hlows : ∀ c ∈ lows, c = '_') (hword : '_' ∉ word)
    (hhead : ∀ c ∈ word.head?, upperChars c = [c]) : pascalChars (lows ++ word) = lows ++ word := by
  have hlows : ∀ c ∈ lows, decide (c = '_') = true := fun c hc => decide_eq_true (hlows c hc)
  have htake : word.takeWhile (· = '_') = [] ∧ word.dropWhile (· = '_') = word := by
    cases word with
    | nil => exact ⟨rfl, rfl⟩
    | cons first rest =>
      have hfirst : ¬decide (first = '_') = true := by
        rintro hlow
        exact hword (List.mem_cons.mpr (Or.inl (of_decide_eq_true hlow).symm))
      exact ⟨List.takeWhile_cons_of_neg hfirst, List.dropWhile_cons_of_neg hfirst⟩
  rw [pascalChars, List.takeWhile_append_of_pos hlows, List.dropWhile_append_of_pos hlows, htake.1, htake.2,
    List.append_nil, flatMap_wordsOf hword, capitalise_eq_self hhead]

theorem pascalChars_idem (chars : List Char) : pascalChars (pascalChars chars) = pascalChars chars := by
  generalize hwords : wordsOf (chars.dropWhile (· = '_')) = words
  have hword : '_' ∉ words.flatMap capitalise := by
    rw [← hwords, List.mem_flatMap]
    rintro ⟨word, hword, hlow⟩
    exact low_notMem_capitalise (low_notMem_of_mem_wordsOf hword) hlow
  have hne : ∀ word ∈ words, word ≠ [] := by
    rw [← hwords]
    exact fun word hword => of_decide_eq_true (List.mem_filter.mp hword).2
  have hpascal : pascalChars chars = chars.takeWhile (· = '_') ++ words.flatMap capitalise := by
    rw [pascalChars, hwords]
  have hlows : ∀ c ∈ chars.takeWhile (· = '_'), c = '_' := by
    intro c hc
    have hmark := List.mem_takeWhile_imp hc
    exact of_decide_eq_true hmark
  rw [hpascal]
  exact pascalChars_append hlows hword (upperChars_of_head_flatMap hne)

/-! ### Escaped names -/

theorem snakeCase_idem (name : String) : snakeCase (snakeCase name) = snakeCase name := by
  rw [snakeCase, snakeCase, String.toList_ofList, snakeChars_idem]

theorem pascalCase_idem (name : String) : pascalCase (pascalCase name) = pascalCase name := by
  rw [pascalCase, pascalCase, String.toList_ofList, pascalChars_idem]

/-- Escaping does not get in the way of casing if the escaped forms of reserved words keep as they are. -/
theorem escapeName_recased {recase : String → String} (hidem : ∀ name, recase (recase name) = recase name)
    (hreserved : ∀ word ∈ reservedWords, recase word = word → escapeName (recase (word ++ "_")) = word ++ "_")
    (name : String) : escapeName (recase (escapeName (recase name))) = escapeName (recase name) := by
  by_cases h : recase name ∈ reservedWords
  · rw [escapeName_of_mem h]
    exact hreserved (recase name) h (hidem name)
  · rw [escapeName_of_notMem h, hidem, escapeName_of_notMem h]

/-- Casing is idempotent, with the escape of reserved words and without it, and gives no reserved word with it. -/
theorem recasing_idempotent (name : String) :
    snakeCase (snakeCase name) = snakeCase name ∧ pascalCase (pascalCase name) = pascalCase name ∧
      (Recased.snake (Recased.snake name).name).name = (Recased.snake name).name ∧
      (Recased.pascal (Recased.pascal name).name).name = (Recased.pascal name).name ∧
      (Recased.snake name).name ∉ reservedWords ∧ (Recased.pascal name).name ∉ reservedWords := by
  have hsnake : ∀ word ∈ reservedWords, snakeCase word = word →
      escapeName (snakeCase (word ++ "_")) = word ++ "_" := by decide
  have hpascal : ∀ word ∈ reservedWords, pascalCase word = word →
      escapeName (pascalCase (word ++ "_")) = word ++ "_" := by decide
  have hsnakeName : ∀ declared, (Recased.snake declared).name = escapeName (snakeCase declared) := fun _ => rfl
  have hpascalName : ∀ declared, (Recased.pascal declared).name = escapeName (pascalCase declared) := fun _ => rfl
  rw [hsnakeName, hsnakeName, hpascalName, hpascalName]
  exact ⟨snakeCase_idem name, pascalCase_idem name, escapeName_recased snakeCase_idem hsnake name,
    escapeName_recased pascalCase_idem hpascal name, escapeName_notMem_reservedWords _,
    escapeName_notMem_reservedWords _⟩

end StubGen
