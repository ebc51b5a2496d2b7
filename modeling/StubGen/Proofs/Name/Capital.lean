import StubGen.Proofs.Name.Casing

/-!
# Capitals at the front of type names

A type's name begins with no small letter of ASCII, since the upper-case form of a character is none.  Of the reserved
words, only those with a capital can then be a type's name, and no other name of a type is escaped
(`Recased.name_pascal_eq_iff`).
-/

namespace StubGen

/-! ### Characters -/

/-- Whether the forms that a run gives are no small letters of ASCII. -/
def CaseRun.avoidsAsciiLower (run : CaseRun) : Bool :=
  (run.last : Int) + run.offset < 97 ∨ 122 < (run.first : Int) + run.offset

theorem CaseRun.mapWith_notAsciiLower {runs : List CaseRun} (h : runs.all avoidsAsciiLower = true)
    (hcovered : ∀ code, 97 ≤ code → code ≤ 122 → ∃ run ∈ runs, run.covers code = true) (code : Nat) :
    mapWith runs code < 97 ∨ 122 < mapWith runs code := by
  unfold mapWith
  split
  · rename_i run hfind
    have hfound := List.find?_some hfind
    have hcovers : run.first ≤ code ∧ code ≤ run.last := le_of_covers hfound
    have havoids := List.all_eq_true.mp h run (List.mem_of_find?_eq_some hfind)
    rw [avoidsAsciiLower, decide_eq_true_eq] at havoids
    rw [apply]
    omega
  · -- a character of no run keeps its form, and the small letters all have one
    rename_i hfind
    have huncovered : ¬(97 ≤ code ∧ code ≤ 122) := by
      rintro ⟨hfirst, hlast⟩
      obtain ⟨run, hrun, hcovers⟩ := hcovered code hfirst hlast
      exact List.find?_eq_none.mp hfind run hrun hcovers
    omega

theorem isAsciiLower_ofNat {code : Nat} (h : code < 97 ∨ 122 < code) : isAsciiLower (Char.ofNat code) = false := by
  have hform := toNat_ofNat_or code
  have hrange : ¬('a' ≤ Char.ofNat code ∧ Char.ofNat code ≤ 'z') := by
    rintro ⟨hfirst, hlast⟩
    have hfirst : 97 ≤ (Char.ofNat code).toNat := hfirst
    have hlast : (Char.ofNat code).toNat ≤ 122 := hlast
    omega
  rw [isAsciiLower, ← Bool.decide_and]
  exact decide_eq_false hrange

/-- An upper-case form has no small letter of ASCII. -/
theorem isAsciiLower_of_mem_upperChars {c d : Char} (h : d ∈ upperChars c) : isAsciiLower d = false := by
  have hsequences : ∀ entry ∈ upperSequences, ∀ code ∈ entry.2, code < 97 ∨ 122 < code := by decide
  have hcovered : ∀ code, 97 ≤ code → code ≤ 122 → ∃ run ∈ upperRuns, run.covers code = true := by
    intro code hfirst hlast
    refine ⟨⟨97, 122, 1, -32⟩, by rw [upperRuns]; exact List.mem_cons_self .., ?_⟩
    rw [CaseRun.covers, decide_eq_true_eq]
    exact ⟨hfirst, hlast, Nat.mod_one _⟩
  unfold upperChars at h
  split at h
  · rename_i codes hlookup
    obtain ⟨code, hcode, rfl⟩ := List.mem_map.mp h
    exact isAsciiLower_ofNat (hsequences _ (mem_upperSequences hlookup) code hcode)
  · rw [List.mem_singleton.mp h]
    exact isAsciiLower_ofNat (CaseRun.mapWith_notAsciiLower (by decide) hcovered c.toNat)

/-! ### Names -/

private theorem head_flatMap_capitalise {words : List (List Char)} (h : ∀ word ∈ words, word ≠ []) :
    ∀ c ∈ (words.flatMap capitalise).head?, isAsciiLower c = false := by
  cases words with
  | nil => simp
  | cons word others =>
    obtain ⟨first, rest, rfl⟩ := List.exists_cons_of_ne_nil (h word (List.mem_cons_self ..))
    obtain ⟨upper, more, hupper⟩ := List.exists_cons_of_ne_nil (upperChars_ne_nil first)
    intro c hc
    rw [List.flatMap_cons, capitalise, hupper] at hc
    have hhead : upper = c := Option.some.inj hc
    refine isAsciiLower_of_mem_upperChars (c := first) ?_
    rw [hupper, ← hhead]
    exact List.mem_cons_self ..

/-- The characters of a type's name begin with a low line or with a capital form. -/
theorem head_pascalChars (chars : List Char) : ∀ c ∈ (pascalChars chars).head?, isAsciiLower c = false := by
  intro c hc
  rw [pascalChars] at hc
  cases hlows : chars.takeWhile (· = '_') with
  | nil =>
    rw [hlows, List.nil_append] at hc
    exact head_flatMap_capitalise (fun word hword => by simpa using (List.mem_filter.mp hword).2) c hc
  | cons low lows =>
    rw [hlows] at hc
    have hhead : low = c := Option.some.inj hc
    have hlow : low ∈ chars.takeWhile (· = '_') := by
      rw [hlows]
      exact List.mem_cons_self ..
    have hmark := List.all_eq_true.mp List.all_takeWhile low hlow
    rw [← hhead, of_decide_eq_true hmark]
    decide

/-- The reserved words that begin with a capital. -/
def capitalWords : List String := ["False", "None", "True"]

theorem pascalCase_mem_reservedWords_iff (name : String) :
    pascalCase name ∈ reservedWords ↔ pascalCase name ∈ capitalWords := by
  have hsmall : ∀ word ∈ reservedWords, word ∉ capitalWords → word.toList.head?.any isAsciiLower = true := by
    decide
  have hcapital : ∀ word ∈ capitalWords, word ∈ reservedWords := by decide
  refine ⟨fun h => ?_, hcapital _⟩
  by_cases hmem : pascalCase name ∈ capitalWords
  · exact hmem
  · obtain ⟨c, hc, hlower⟩ := (Option.any_eq_true _ _).mp (hsmall _ h hmem)
    rw [pascalCase, String.toList_ofList] at hc
    rw [head_pascalChars name.toList c hc] at hlower
    cases hlower

/-- A type's name is escaped just if it is one of the reserved words with a capital. -/
theorem Recased.name_pascal_eq_iff (name : String) :
    (Recased.pascal name).name = pascalCase name ↔ pascalCase name ∉ capitalWords := by
  have hname : (Recased.pascal name).name = escapeName (pascalCase name) := rfl
  rw [hname, ← pascalCase_mem_reservedWords_iff]
  constructor
  · intro h hreserved
    exact escapeName_notMem_reservedWords (pascalCase name) (h.symm ▸ hreserved)
  · exact escapeName_of_notMem

end StubGen
