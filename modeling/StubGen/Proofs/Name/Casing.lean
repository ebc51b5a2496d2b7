import Mathlib.Data.Bool.AllAny
import Mathlib.Tactic.Tauto
import StubGen.Name.Casing

/-!
# Casing and the marks of the layout

A name that is cased anew has no line break, blank, or other mark of the layout that it did not have before: a case
form is a letter, and casing adds low lines only.

* `mapWith_eq_or` and `eq_of_mem_upperChars` speak of the forms of one character.
* `Recased.mem_of_mem_snake` and `Recased.mem_of_mem_pascal` speak of names.
* `eq_of_append_toString` tells names with numbers apart.
-/

namespace StubGen

/-- The characters that lines of a module are told apart by. -/
def layoutMarks : List Char := ['\n', ' ', '#', '@']

/-! ### Characters -/

/-- Whether the forms that a run gives are beyond the marks of ASCII. -/
def CaseRun.staysHigh (run : CaseRun) : Bool := 64 < (run.first : Int) + run.offset

theorem CaseRun.le_of_covers {run : CaseRun} {code : Nat} (h : run.covers code = true) :
    run.first ≤ code ∧ code ≤ run.last := by
  simp only [covers, Bool.decide_and, Bool.and_eq_true, decide_eq_true_eq] at h
  exact ⟨h.1, h.2.1⟩

theorem CaseRun.mapWith_eq_or {runs : List CaseRun} (h : runs.all staysHigh = true) (code : Nat) :
    mapWith runs code = code ∨ 64 < mapWith runs code := by
  unfold mapWith
  split
  · rename_i run hfind
    have hfound := List.find?_some hfind
    have hcovers : run.first ≤ code ∧ code ≤ run.last := le_of_covers hfound
    have hhigh := List.all_eq_true.mp h run (List.mem_of_find?_eq_some hfind)
    rw [staysHigh, decide_eq_true_eq] at hhigh
    rw [apply]
    omega
  · exact Or.inl rfl

theorem toNat_ofNat_or (code : Nat) : (Char.ofNat code).toNat = code ∨ (Char.ofNat code).toNat = 0 := by
  by_cases h : code.isValidChar
  · rw [Char.ofNat, dif_pos h]
    exact Or.inl rfl
  · rw [Char.ofNat, dif_neg h]
    exact Or.inr rfl

theorem notMem_layoutMarks_ofNat {code : Nat} (h : 64 < code) : Char.ofNat code ∉ layoutMarks := by
  have hmarks : ∀ mark ∈ layoutMarks, mark.toNat ≤ 64 ∧ mark.toNat ≠ 0 :=
    List.all_iff_forall_prop.mp (by decide)
  have hform := toNat_ofNat_or code
  intro hmem
  obtain ⟨hle, hne⟩ := hmarks _ hmem
  omega

/-- The form of a character after runs whose forms are letters. -/
private theorem eq_ofNat_mapWith {runs : List CaseRun} (h : runs.all CaseRun.staysHigh = true) {c d : Char}
    (hd : d ∈ layoutMarks) (heq : d = Char.ofNat (CaseRun.mapWith runs c.toNat)) : d = c := by
  rcases CaseRun.mapWith_eq_or h c.toNat with hsame | hhigh
  · rw [heq, hsame, Char.ofNat_toNat]
  · rw [heq] at hd
    exact absurd hd (notMem_layoutMarks_ofNat hhigh)

theorem mem_upperSequences {code : Nat} {codes : List Nat} (h : upperSequences.lookup code = some codes) :
    (code, codes) ∈ upperSequences := by
  obtain ⟨before, after, heq, -⟩ := List.lookup_eq_some_iff.mp h
  rw [heq]
  exact List.mem_append_right _ (List.mem_cons_self ..)

theorem eq_of_mem_upperChars {c d : Char} (h : d ∈ upperChars c) (hd : d ∈ layoutMarks) : d = c := by
  have hsequences : ∀ entry ∈ upperSequences, ∀ code ∈ entry.2, 64 < code := by decide
  unfold upperChars at h
  split at h
  · rename_i codes hlookup
    obtain ⟨code, hcode, rfl⟩ := List.mem_map.mp h
    exact absurd hd (notMem_layoutMarks_ofNat (hsequences _ (mem_upperSequences hlookup) code hcode))
  · exact eq_ofNat_mapWith (by decide) hd (List.mem_singleton.mp h)

theorem eq_of_mem_lowerChars {c d : Char} (h : d ∈ lowerChars c) (hd : d ∈ layoutMarks) : d = c := by
  unfold lowerChars at h
  split at h
  · have hforms : ∀ form ∈ ['i', '\u0307'], form ∉ layoutMarks := List.all_iff_forall_prop.mp (by decide)
    exact absurd hd (hforms d h)
  · exact eq_ofNat_mapWith (by decide) hd (List.mem_singleton.mp h)

/-! ### Names -/

variable {chars : List Char} {mark : Char}

private theorem mem_of_mem_lowerFrom {before : List Char} (h : mark ∈ lowerFrom before chars)
    (hmark : mark ∈ layoutMarks) : mark ∈ chars := by
  have hsigma : ∀ form ∈ ['ς', 'σ'], form ∉ layoutMarks := List.all_iff_forall_prop.mp (by decide)
  induction chars generalizing before with
  | nil => exact h
  | cons c rest ih =>
    rw [lowerFrom, List.mem_append] at h
    rcases h with h | h
    · split at h
      · split at h
        · exact absurd hmark (hsigma mark (List.mem_cons.mpr (Or.inl (List.mem_singleton.mp h))))
        · exact absurd hmark (hsigma mark (List.mem_cons_of_mem _ h))
      · exact List.mem_cons.mpr (Or.inl (eq_of_mem_lowerChars h hmark))
    · exact List.mem_cons_of_mem c (ih h)

private theorem mem_of_mem_splitHumps (h : mark ∈ splitHumps chars) (hlow : mark ≠ '_') : mark ∈ chars := by
  induction chars with
  | nil => exact h
  | cons c rest ih =>
    unfold splitHumps at h
    split at h <;> simp only [List.mem_cons] at h ⊢ <;> tauto

private theorem mem_of_mem_joinLows (h : mark ∈ joinLows chars) : mark ∈ chars := by
  induction chars with
  | nil => exact h
  | cons c rest ih =>
    unfold joinLows at h
    split at h
    · exact List.mem_cons_of_mem c (ih h)
    · exact (List.mem_cons.mp h).elim (fun heq => heq ▸ List.mem_cons_self ..) fun h => List.mem_cons_of_mem c (ih h)

private theorem mem_of_mem_splitWords {place : WordPlace} (h : mark ∈ splitWords place chars) (hlow : mark ≠ '_') :
    mark ∈ chars := by
  induction chars generalizing place with
  | nil => simp [splitWords] at h
  | cons c rest ih =>
    have hrest : ∀ {place}, mark = c ∨ mark ∈ splitWords place rest → mark ∈ c :: rest :=
      fun h => List.mem_cons.mpr (h.imp_right ih)
    unfold splitWords at h
    split at h
    · rename_i heq
      cases heq
    · rename_i heq
      cases heq
      exact hrest (List.mem_cons.mp h)
    · rename_i heq
      cases heq
      split at h
      · exact hrest (List.mem_cons.mp h)
      · split at h
        · simp only [List.mem_cons, hlow, false_or] at h
          exact hrest h
        · exact hrest (List.mem_cons.mp h)

theorem mem_of_mem_snakeChars (h : mark ∈ snakeChars chars) (hmark : mark ∈ layoutMarks) : mark ∈ chars := by
  have hlow : ∀ other ∈ layoutMarks, other ≠ '_' := List.all_iff_forall_prop.mp (by decide)
  unfold snakeChars at h
  split at h
  · exact mem_of_mem_splitWords (mem_of_mem_joinLows (mem_of_mem_splitHumps (mem_of_mem_lowerFrom h hmark)
      (hlow mark hmark))) (hlow mark hmark)
  · exact h

private theorem mem_of_mem_wordsOf {word : List Char} (hword : word ∈ wordsOf chars) (h : mark ∈ word) :
    mark ∈ chars := by
  have hsplit := (List.mem_filter.mp hword).1
  clear hword
  induction chars generalizing word with
  | nil => simp_all
  | cons c rest ih =>
    obtain ⟨first, others, heq⟩ := List.exists_cons_of_ne_nil (List.splitOn_ne_nil '_' rest)
    rw [List.splitOn_cons_eq_if_modifyHead, heq, List.modifyHead_cons] at hsplit
    rw [heq] at ih
    split at hsplit
    · rcases List.mem_cons.mp hsplit with rfl | hsplit
      · cases h
      · exact List.mem_cons_of_mem c (ih h hsplit)
    · rcases List.mem_cons.mp hsplit with rfl | hsplit
      · exact (List.mem_cons.mp h).elim (fun heq => heq ▸ List.mem_cons_self ..)
          fun h => List.mem_cons_of_mem c (ih h (List.mem_cons_self ..))
      · exact List.mem_cons_of_mem c (ih h (List.mem_cons_of_mem first hsplit))

theorem mem_of_mem_pascalChars (h : mark ∈ pascalChars chars) (hmark : mark ∈ layoutMarks) : mark ∈ chars := by
  rcases List.mem_append.mp h with h | h
  · exact (List.takeWhile_prefix _).subset h
  · obtain ⟨word, hword, h⟩ := List.mem_flatMap.mp h
    refine (List.dropWhile_suffix _).subset (mem_of_mem_wordsOf hword ?_)
    cases word with
    | nil => exact h
    | cons c rest =>
      rcases List.mem_append.mp h with h | h
      · exact List.mem_cons.mpr (Or.inl (eq_of_mem_upperChars h hmark))
      · exact List.mem_cons_of_mem c h

theorem upperChars_ne_nil (c : Char) : upperChars c ≠ [] := by
  have hsequences : ∀ entry ∈ upperSequences, entry.2 ≠ [] := by decide
  unfold upperChars
  split
  · rename_i codes hlookup
    simpa using hsequences _ (mem_upperSequences hlookup)
  · simp

/-- A type's name keeps its low lines or its first word. -/
theorem pascalChars_ne_nil (h : chars ≠ []) : pascalChars chars ≠ [] := by
  obtain ⟨c, rest, rfl⟩ := List.exists_cons_of_ne_nil h
  by_cases hlow : c = '_'
  · simp [pascalChars, hlow]
  · obtain ⟨first, others, heq⟩ := List.exists_cons_of_ne_nil (List.splitOn_ne_nil '_' rest)
    have hword : c :: first ∈ wordsOf (c :: rest) := by
      rw [wordsOf, List.splitOn_cons_eq_if_modifyHead, heq, if_neg (by simpa using hlow)]
      simp
    have hdrop : (c :: rest).dropWhile (· = '_') = c :: rest := List.dropWhile_cons_of_neg (by simpa using hlow)
    intro hnil
    rw [pascalChars, hdrop, List.append_eq_nil_iff, List.flatMap_eq_nil_iff] at hnil
    exact upperChars_ne_nil c (List.append_eq_nil_iff.mp (hnil.2 _ hword)).1

theorem escapeName_notMem_reservedWords (name : String) : escapeName name ∉ reservedWords := by
  have hreserved : ∀ word ∈ reservedWords, word ++ "_" ∉ reservedWords := by decide
  by_cases h : name ∈ reservedWords
  · rw [escapeName_of_mem h]
    exact hreserved name h
  · rwa [escapeName_of_notMem h]

theorem escapeName_ne_empty {name : String} (h : name ≠ "") : escapeName name ≠ "" := by
  unfold escapeName
  split
  · rw [ne_eq, ← String.toList_inj, String.toList_append]
    simp
  · exact h

theorem mem_of_mem_escapeName {name : String} (h : mark ∈ (escapeName name).toList) (hmark : mark ∈ layoutMarks) :
    mark ∈ name.toList := by
  have hlow : ∀ other ∈ layoutMarks, other ≠ '_' := List.all_iff_forall_prop.mp (by decide)
  unfold escapeName at h
  split at h
  · rw [String.toList_append, List.mem_append] at h
    rcases h with h | h
    · exact h
    · exact absurd (List.mem_singleton.mp h) (hlow mark hmark)
  · exact h

namespace Recased

variable {declared : String}

theorem mem_of_mem_snake (h : mark ∈ (snake declared).name.toList) (hmark : mark ∈ layoutMarks) :
    mark ∈ declared.toList := by
  have hcased := mem_of_mem_escapeName h hmark
  rw [snakeCase, String.toList_ofList] at hcased
  exact mem_of_mem_snakeChars hcased hmark

theorem mem_of_mem_pascal (h : mark ∈ (pascal declared).name.toList) (hmark : mark ∈ layoutMarks) :
    mark ∈ declared.toList := by
  have hcased := mem_of_mem_escapeName h hmark
  rw [pascalCase, String.toList_ofList] at hcased
  exact mem_of_mem_pascalChars hcased hmark

theorem pascal_ne_empty (h : declared ≠ "") : (pascal declared).name ≠ "" := by
  have hchars : declared.toList ≠ [] := fun hnil => h (String.toList_inj.mp hnil)
  refine escapeName_ne_empty fun hnil => pascalChars_ne_nil hchars ?_
  rw [pascalCase, ← String.toList_inj, String.toList_ofList] at hnil
  exact hnil

end Recased

/-! ### Names with numbers -/

/-- Names that differ in their numbers only are told apart by them. -/
theorem eq_of_append_toString {stem : String} {i j : Nat} (h : stem ++ toString i = stem ++ toString j) : i = j := by
  have hrepr : i.repr = j.repr := (String.append_right_inj stem).mp h
  have hvalue := congrArg (fun digits => Nat.ofDigitChars 10 digits.toList 0) hrepr
  simpa using hvalue

end StubGen
