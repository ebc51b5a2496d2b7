import Mathlib.Data.List.Nodup
import Mathlib.Data.List.Pairwise
import StubGen.Proofs.Switch.Arms

/-!
# Lowering of switches

The branches of the output of a switch select the statements that the switch executes.

* `executed_parts` says what a switch executes, by the entries of its arms.
* `selected_chain` and `selected_cases` say the same of a chain of tests and of a `match`.
* `selected_eq_executed` puts both together.
-/

namespace StubGen.CUnit

open Traced

variable {options : UnitOptions} {context : Context} {cond : Node}

section Values

variable {V : Type} [DecidableEq V] (value : Node → V)

/-- The entry of the label with this value, else of the default label. -/
def entryOf (v : V) (entries : List (CaseLabel × List (Written TracedCode))) : Option (List (Written TracedCode)) :=
  ((entries.find? fun entry => entry.1.key value = some v).or (entries.find? fun entry => entry.1.isDefault)).map
    Prod.snd

theorem executed_parts {arms : List (Arm TracedCode)} (h : ∀ arm ∈ arms, arm.Valid options context) (v : V) :
    executed value v (arms.flatMap Arm.parts) = ((entryOf value v (entries arms)).map withoutBreaks).getD [] := by
  have hvalue := afterLabel_parts h fun label => label.key value = some v
  have hdefault := afterLabel_parts h CaseLabel.isDefault
  rw [executed, entryOf, Option.map_or, hvalue, hdefault, Option.map_or, Option.map_or]

end Values

/-! ### Chains -/

private theorem regions_of_terminal {arm : Arm TracedCode} (h : arm.terminal = true) (rest : List (Arm TracedCode)) :
    regions (arm :: rest) = [arm] :: regions rest := by
  rw [regions, h]

/-- An arm that runs into the next one stands in its region. -/
private theorem regions_of_falling {arm : Arm TracedCode} (h : arm.terminal = false) (rest : List (Arm TracedCode)) :
    rest = [] ∧ regions (arm :: rest) = [[arm]] ∨
      ∃ region others, regions rest = region :: others ∧ regions (arm :: rest) = (arm :: region) :: others := by
  cases hregions : regions rest with
  | cons region others =>
    refine Or.inr ⟨region, others, rfl, ?_⟩
    rw [regions, h, hregions]
  | nil =>
    cases rest with
    | nil => exact Or.inl ⟨rfl, by simp [regions, h]⟩
    | cons next more =>
      rw [regions] at hregions
      split at hregions <;> cases hregions

private theorem flatMap_region {arms region : List (Arm TracedCode)} {others : List (List (Arm TracedCode))}
    (h : regions arms = region :: others) : region.flatMap Arm.body = falling arms := by
  induction arms generalizing region others with
  | nil => cases h
  | cons arm rest ih =>
    rw [falling]
    cases hterminal : arm.terminal with
    | true =>
      rw [regions_of_terminal hterminal] at h
      cases h
      simp
    | false =>
      rcases regions_of_falling hterminal rest with ⟨rfl, hregions⟩ | ⟨next, more, hrest, hregions⟩
      · rw [hregions] at h
        cases h
        simp [falling]
      · rw [hregions] at h
        cases h
        simp [ih hrest]

/-- The entries of the regions are those of the arms. -/
theorem regionEntries_regions (arms : List (Arm TracedCode)) : (regions arms).flatMap regionEntries = entries arms := by
  induction arms with
  | nil => rfl
  | cons arm rest ih =>
    rw [entries, falling, ← ih]
    cases hterminal : arm.terminal with
    | true => simp [regions_of_terminal hterminal, regionEntries]
    | false =>
      rcases regions_of_falling hterminal rest with ⟨rfl, hregions⟩ | ⟨region, others, hrest, hregions⟩
      · simp [regionEntries, regions, falling]
      · simp [hregions, hrest, regionEntries, flatMap_region hrest]

/-- The branch of an entry in a chain. -/
def chainBranch (cond : Node) (entry : CaseLabel × List (Written TracedCode)) : Branch :=
  match entry.1 with
  | .value label => ⟨.guard (.binary "==" cond label), withoutBreaks entry.2⟩
  | .default => ⟨.always, withoutBreaks entry.2⟩

private theorem sequence_ok {body : List (Written TracedCode)} {lines : List Code} (hskip : context.skip.breaks = true)
    (hbody : ∀ written ∈ body, written.code = writeStmt options context false written.stmt)
    (h : (sequence body).result = .ok lines) :
    (writeStmts options context (withoutBreaks body)).result = .ok lines := by
  rwa [sequence_eq hskip hbody] at h

/-- A chain is the layout of the branches of its entries. -/
theorem isChain_writeChain {first : Bool} {entries : List (CaseLabel × List (Written TracedCode))} {codes : List Code}
    (hskip : context.skip.breaks = true)
    (hbodies : ∀ entry ∈ entries, ∀ written ∈ entry.2, written.code = writeStmt options context false written.stmt)
    (hdefault : defaultBeforeLast (entries.map Prod.fst) = false)
    (hfirst : first = true → ∀ entry ∈ entries.head?, entry.1.isDefault = false)
    (h : (writeChain options.reduceParentheses cond first entries).result = .ok codes) :
    IsChain options context cond first (entries.map (chainBranch cond)) codes := by
  induction entries generalizing first codes with
  | nil =>
    cases h
    exact .nil
  | cons entry rest ih =>
    have hbody := hbodies entry (List.mem_cons_self ..)
    have hothers : ∀ other ∈ rest, ∀ written ∈ other.2, written.code = writeStmt options context false written.stmt :=
      fun other hother => hbodies other (List.mem_cons_of_mem _ hother)
    obtain ⟨label, stmts⟩ := entry
    cases label with
    | value label =>
      simp only [writeChain, bind_eq_ok, pure_result, Except.ok.injEq] at h
      obtain ⟨text, htext, lines, hlines, others, hcodes, rfl⟩ := h
      have hdefault' : defaultBeforeLast (rest.map Prod.fst) = false := by
        cases rest with
        | nil => rfl
        | cons next more => simpa [defaultBeforeLast, CaseLabel.isDefault] using hdefault
      exact .test htext ⟨lines, sequence_ok hskip hbody hlines, rfl⟩ (ih hothers hdefault' (by simp) hcodes)
    | default =>
      -- the default label comes last, and not alone
      have hrest : rest = [] := by
        cases rest with
        | nil => rfl
        | cons next more => simp [defaultBeforeLast, CaseLabel.isDefault] at hdefault
      have hlast : first = false := by
        cases first with
        | false => rfl
        | true => exact absurd (hfirst rfl _ rfl) (by simp [CaseLabel.isDefault])
      subst hrest hlast
      simp only [writeChain, bind_eq_ok, pure_result, Except.ok.injEq] at h
      obtain ⟨lines, hlines, others, rfl, rfl⟩ := h
      exact .otherwise ⟨lines, sequence_ok hskip hbody hlines, rfl⟩

/-- A chain selects the entry of the value: its default branch comes last. -/
theorem selected_chain {V : Type} [DecidableEq V] (value : Node → V) (v : V)
    {entries : List (CaseLabel × List (Written TracedCode))}
    (hdefault : defaultBeforeLast (entries.map Prod.fst) = false) :
    selected value v (entries.map (chainBranch cond)) = ((entryOf value v entries).map withoutBreaks).getD [] := by
  induction entries with
  | nil => rfl
  | cons entry rest ih =>
    obtain ⟨label, stmts⟩ := entry
    cases label with
    | value label =>
      have hdefault' : defaultBeforeLast (rest.map Prod.fst) = false := by
        cases rest with
        | nil => rfl
        | cons next more => simpa [defaultBeforeLast, CaseLabel.isDefault] using hdefault
      have hrest := ih hdefault'
      by_cases hvalue : v = value label
      · simp [selected, entryOf, chainBranch, Test.holds, comparisonHolds, CaseLabel.key, hvalue]
      · have hvalue' : value label ≠ v := fun heq => hvalue heq.symm
        simpa [selected, entryOf, chainBranch, Test.holds, comparisonHolds, CaseLabel.key, CaseLabel.isDefault, hvalue,
          hvalue'] using hrest
    | default =>
      have hrest : rest = [] := by
        cases rest with
        | nil => rfl
        | cons next more => simp [defaultBeforeLast, CaseLabel.isDefault] at hdefault
      subst hrest
      simp [selected, entryOf, chainBranch, Test.holds, CaseLabel.key, CaseLabel.isDefault]

/-! ### Cases of a match -/

theorem patterns_ok {reduce : Bool} {labels : List Node} {found : Option (List String)}
    (h : (patterns? reduce labels).result = .ok found) :
    match found with
    | some texts => labels.all isPattern = true ∧ (renderExprs reduce labels).result = .ok texts
    | none => labels.all isPattern = false := by
  induction labels generalizing found with
  | nil =>
    cases h
    exact ⟨rfl, rfl⟩
  | cons label rest ih =>
    rw [patterns?] at h
    split at h
    · rename_i hpattern
      simp only [bind_eq_ok, pure_result, Except.ok.injEq] at h
      obtain ⟨text, htext, others, hothers, rfl⟩ := h
      have hrest := ih hothers
      cases others with
      | none => simpa [hpattern] using hrest
      | some texts =>
        obtain ⟨hall, htexts⟩ := hrest
        refine ⟨by simp [hpattern, hall], ?_⟩
        simp only [renderExprs, bind_eq_ok, pure_result, Except.ok.injEq]
        exact ⟨text, htext, texts, htexts, rfl⟩
    · rename_i hpattern
      cases h
      simp [hpattern]

/-- The expressions of the labels of an arm. -/
def Arm.values (arm : Arm TracedCode) : List Node := arm.labels.filterMap CaseLabel.value?

/-- The test of a case. -/
def caseTest (cond : Node) (arm : Arm TracedCode) : Test :=
  if arm.hasDefault then .always
  else if arm.values.all isPattern then .among arm.values
  else ((guardOf cond arm.values).map .guard).getD .always

theorem isHeader_caseHeader {reduce : Bool} {arm : Arm TracedCode} {header : String}
    (h : (caseHeader reduce cond arm).result = .ok header) : IsHeader reduce cond (caseTest cond arm) header := by
  rw [caseHeader] at h
  rw [caseTest]
  split at h
  · rw [if_pos ‹_›]
    cases h
    exact .always
  · rw [if_neg ‹_›]
    change (patterns? reduce arm.values >>= _).result = _ at h
    obtain ⟨found, hfound, h⟩ := bind_eq_ok.mp h
    have hpatterns := patterns_ok hfound
    cases found with
    | some texts =>
      obtain ⟨hall, htexts⟩ := hpatterns
      rw [if_pos hall]
      cases h
      exact .among (fun label hlabel => List.all_eq_true.mp hall label hlabel) htexts
    | none =>
      rw [if_neg (by simp [hpatterns])]
      simp only at h
      split at h
      · cases h
      · split at h
        · rename_i guard hguard
          obtain ⟨text, htext, h⟩ := bind_eq_ok.mp h
          cases h
          change guardOf cond arm.values = some guard at hguard
          rw [hguard]
          exact .guard hguard htext
        · cases h

section Values

variable {V : Type} [DecidableEq V] (value : Node → V) (v : V)

private theorem comparisonHolds_foldl (cond test : Node) (labels : List Node) :
    comparisonHolds value v (labels.foldl (fun test label => .binary "||" test (.binary "==" cond label)) test) =
      (comparisonHolds value v test || labels.any fun label => v = value label) := by
  induction labels generalizing test with
  | nil => simp
  | cons label rest ih =>
    rw [List.foldl_cons, ih]
    simp [comparisonHolds, Bool.or_assoc]

private theorem any_values (arm : Arm TracedCode) :
    (arm.values.any fun label => v = value label) = arm.labels.any fun label => label.key value = some v := by
  rw [Arm.values]
  induction arm.labels with
  | nil => rfl
  | cons label rest ih =>
    cases label with
    | value label => simp [CaseLabel.value?, CaseLabel.key, ih, eq_comm]
    | default => simpa [CaseLabel.value?, CaseLabel.key] using ih

/-- The test of a case holds for the values of its labels, and with a default label for all. -/
theorem holds_caseTest {arm : Arm TracedCode} (hlabels : arm.labels ≠ []) :
    (caseTest cond arm).holds value v =
      (arm.hasDefault || arm.labels.any fun label => label.key value = some v) := by
  rw [caseTest]
  split
  · rename_i hdefault
    simp [hdefault, Test.holds]
  · rename_i hdefault
    rw [Bool.not_eq_true] at hdefault
    rw [hdefault, Bool.false_or, ← any_values]
    split
    · simp [Test.holds, eq_comm]
    · -- without a default label the arm has a value to compare with
      have hvalues : arm.values ≠ [] := by
        obtain ⟨label, others, heq⟩ := List.exists_cons_of_ne_nil hlabels
        cases label with
        | value label => simp [Arm.values, heq, CaseLabel.value?]
        | default => simp [Arm.hasDefault, heq, CaseLabel.isDefault] at hdefault
      obtain ⟨label, others, heq⟩ := List.exists_cons_of_ne_nil hvalues
      simp [heq, guardOf, Test.holds, comparisonHolds_foldl, comparisonHolds]

private theorem find?_entries {arms : List (Arm TracedCode)} (h : fallsThrough arms = false) (p : CaseLabel → Bool) :
    ((entries arms).find? fun entry => p entry.1).map Prod.snd =
      (arms.find? fun arm => arm.labels.any p).map Arm.body := by
  induction arms with
  | nil => rfl
  | cons arm rest ih =>
    have hrest : fallsThrough rest = false := by
      cases rest with
      | nil => rfl
      | cons next more =>
        simp only [fallsThrough, List.dropLast_cons_cons, List.any_cons, Bool.or_eq_false_iff] at h
        exact h.2
    have hbody : falling (arm :: rest) = arm.body := by
      rw [falling]
      split
      · rfl
      · cases rest with
        | nil => simp [falling]
        | cons next more => simp_all [fallsThrough]
    rw [entries, find?_labels, hbody, ih hrest, List.find?_cons]
    cases arm.labels.any p <;> rfl

omit [DecidableEq V] in
/-- Labels with one key stand in one arm. -/
private theorem arm_unique {arms : List (Arm TracedCode)}
    (hdistinct : ((arms.flatMap Arm.labels).map (·.key value)).Nodup)
    {a b : Arm TracedCode} (ha : a ∈ arms) (hb : b ∈ arms) {key : Option V} (hkeya : key ∈ a.labels.map (·.key value))
    (hkeyb : key ∈ b.labels.map (·.key value)) : b = a := by
  rw [List.map_flatMap, List.nodup_flatMap] at hdistinct
  have hsymm : Std.Symm (Function.onFun List.Disjoint fun arm : Arm TracedCode => arm.labels.map (·.key value)) :=
    ⟨fun _ _ h _ hfirst hsecond => h hsecond hfirst⟩
  by_contra hne
  exact hdistinct.2.forall hb ha hne hkeyb hkeya

omit [DecidableEq V] in
private theorem none_mem_keys {arm : Arm TracedCode} (h : arm.hasDefault = true) :
    none ∈ arm.labels.map (·.key value) := by
  obtain ⟨label, hlabel, hdefault⟩ := List.any_eq_true.mp h
  cases label with
  | value label => cases hdefault
  | default => exact List.mem_map.mpr ⟨_, hlabel, rfl⟩

/-- An arm with a default label and a value is the only arm with either. -/
private theorem default_unique {arms : List (Arm TracedCode)}
    (hdistinct : ((arms.flatMap Arm.labels).map (·.key value)).Nodup) :
    ∀ a ∈ arms, a.hasDefault = true → (a.labels.any fun label => label.key value = some v) = true →
      ∀ b ∈ arms, b.hasDefault = true ∨ (b.labels.any fun label => label.key value = some v) = true → b = a := by
  have hkey : ∀ arm : Arm TracedCode, (arm.labels.any fun label => label.key value = some v) = true →
      some v ∈ arm.labels.map (·.key value) := by simp
  rintro a ha hdefault hvalue b hb (hb' | hb')
  · exact arm_unique value hdistinct ha hb (none_mem_keys value hdefault) (none_mem_keys value hb')
  · exact arm_unique value hdistinct ha hb (hkey a hvalue) (hkey b hb')

/-- Moving the arms with a default label to the end does not change what is found first, if the arm that is found has
all labels that could be found. -/
private theorem find?_matchOrder {arms : List (Arm TracedCode)} {p : Arm TracedCode → Bool}
    (h : ∀ a ∈ arms, a.hasDefault = true → p a = true →
      ∀ b ∈ arms, b.hasDefault = true ∨ p b = true → b = a) :
    (matchOrder arms).find? (fun arm => arm.hasDefault || p arm) =
      (arms.find? p).or (arms.find? (·.hasDefault)) := by
  have hdefaults :
      (fun arm : Arm TracedCode => arm.hasDefault && (arm.hasDefault || p arm)) = fun arm => arm.hasDefault := by
    funext arm
    cases arm.hasDefault <;> rfl
  rw [matchOrder, List.find?_append]
  simp only [List.find?_filter, Bool.decide_and, Bool.decide_eq_true]
  rw [hdefaults]
  cases hp : arms.find? p with
  | none =>
    -- only a default label is found, and the moved arms keep their order
    have hnone : arms.find? (fun arm => !arm.hasDefault && (arm.hasDefault || p arm)) = none := by
      rw [List.find?_eq_none] at hp ⊢
      intro arm harm
      have := hp arm harm
      cases arm.hasDefault <;> simp_all
    simp [hnone]
  | some a =>
    obtain ⟨hpa, before, others, rfl, hbefore⟩ := List.find?_eq_some_iff_append.mp hp
    have ha : a ∈ before ++ a :: others := by simp
    cases hdefault : a.hasDefault with
    | false =>
      -- the arm stays ahead of the moved ones
      have hfirst :
          (before ++ a :: others).find? (fun arm => !arm.hasDefault && (arm.hasDefault || p arm)) = some a := by
        rw [List.find?_eq_some_iff_append]
        refine ⟨by simp [hdefault, hpa], before, others, rfl, fun arm harm => ?_⟩
        have := hbefore arm harm
        cases arm.hasDefault <;> simp_all
      simp [hfirst]
    | true =>
      -- the arm is moved, but no other one is found before it
      have hunique := h a ha hdefault hpa
      have hnone : (before ++ a :: others).find? (fun arm => !arm.hasDefault && (arm.hasDefault || p arm)) = none := by
        rw [List.find?_eq_none]
        intro arm harm htest
        simp only [Bool.and_eq_true, Bool.not_eq_true', Bool.or_eq_true] at htest
        rw [hunique arm harm htest.2, hdefault] at htest
        cases htest.1
      have hsome : (before ++ a :: others).find? (·.hasDefault) = some a := by
        cases hfind : (before ++ a :: others).find? (·.hasDefault) with
        | none => exact absurd hdefault (by simpa using List.find?_eq_none.mp hfind a ha)
        | some b => rw [hunique b (List.mem_of_find?_eq_some hfind) (Or.inl (List.find?_some hfind))]
      simp [hnone, hsome]

/-- The branch of an arm in a `match`. -/
def caseBranch (cond : Node) (arm : Arm TracedCode) : Branch := ⟨caseTest cond arm, withoutBreaks arm.body⟩

private theorem find?_caseTest {arms : List (Arm TracedCode)} (hlabels : ∀ arm ∈ arms, arm.labels ≠ []) :
    arms.find? (fun arm => (caseTest cond arm).holds value v) =
      arms.find? fun arm => arm.hasDefault || arm.labels.any fun label => label.key value = some v := by
  induction arms with
  | nil => rfl
  | cons arm rest ih =>
    obtain ⟨hlabel, hrest⟩ := List.forall_mem_cons.mp hlabels
    rw [List.find?_cons, List.find?_cons, holds_caseTest value v hlabel, ih hrest]

/-- A `match` selects the entry of the value, although its default case comes last. -/
theorem selected_cases {arms : List (Arm TracedCode)} (hlabels : ∀ arm ∈ arms, arm.labels ≠ [])
    (hdistinct : ((arms.flatMap Arm.labels).map (·.key value)).Nodup) (hfalls : fallsThrough arms = false) :
    selected value v ((matchOrder arms).map (caseBranch cond)) =
      ((entryOf value v (entries arms)).map withoutBreaks).getD [] := by
  have hmatch : (matchOrder arms).find? (fun arm => (caseTest cond arm).holds value v) =
      (matchOrder arms).find? fun arm => arm.hasDefault || arm.labels.any fun label => label.key value = some v :=
    find?_caseTest value v fun arm harm => hlabels arm (mem_of_mem_matchOrder harm)
  have hbranch : selected value v ((matchOrder arms).map (caseBranch cond)) =
      (((matchOrder arms).find? fun arm => (caseTest cond arm).holds value v).map fun arm =>
        withoutBreaks arm.body).getD [] := by
    rw [selected, List.find?_map, Option.map_map]
    rfl
  have hentry : entryOf value v (entries arms) = ((arms.find? fun arm =>
      arm.labels.any fun label => label.key value = some v).or (arms.find? (·.hasDefault))).map Arm.body := by
    rw [entryOf, Option.map_or, find?_entries hfalls fun label => label.key value = some v,
      find?_entries hfalls CaseLabel.isDefault, Option.map_or]
    rfl
  rw [hbranch, hmatch, find?_matchOrder (default_unique value v hdistinct), hentry, Option.map_map]
  rfl

end Values

/-- A `match` has a case for the branch of each arm. -/
theorem writeMatch_ok {arms : List (Arm TracedCode)} {code : List Code} (hskip : context.skip.breaks = true)
    (hvalid : ∀ arm ∈ arms, arm.Valid options context)
    (h : (writeMatch options.reduceParentheses cond arms).result = .ok code) :
    ∃ subject suites, (renderExpr options.reduceParentheses cond).result = .ok subject ∧
      code = [.suite ("match " ++ subject ++ ":") suites] ∧
      List.Forall₂ (fun branch code => ∃ header, IsHeader options.reduceParentheses cond branch.test header ∧
        IsSuite options context header branch.stmts code) ((matchOrder arms).map (caseBranch cond)) suites := by
  simp only [writeMatch, bind_eq_ok] at h
  obtain ⟨subject, hsubject, suites, hsuites, h⟩ := h
  cases h
  refine ⟨subject, suites, hsubject, rfl, ?_⟩
  have hmem : ∀ arm ∈ matchOrder arms, arm.Valid options context :=
    fun arm harm => hvalid arm (mem_of_mem_matchOrder harm)
  generalize matchOrder arms = ordered at hmem hsuites
  induction ordered generalizing suites with
  | nil =>
    cases hsuites
    exact .nil
  | cons arm rest ih =>
    rw [List.mapM_cons] at hsuites
    obtain ⟨suite, hsuite, hsuites⟩ := bind_eq_ok.mp hsuites
    obtain ⟨others, hothers, hsuites⟩ := bind_eq_ok.mp hsuites
    cases hsuites
    obtain ⟨header, hheader, hsuite⟩ := bind_eq_ok.mp hsuite
    obtain ⟨lines, hlines, hsuite⟩ := bind_eq_ok.mp hsuite
    cases hsuite
    refine .cons ⟨header, isHeader_caseHeader hheader, lines, ?_, rfl⟩
      (ih others (fun other hother => hmem other (List.mem_cons_of_mem _ hother)) hothers)
    exact sequence_ok hskip (hmem arm (List.mem_cons_self ..)).code_eq hlines

/-- A `match` is the layout of the branches of its arms. -/
theorem lowers_writeMatch {arms : List (Arm TracedCode)} {code : List Code} (hskip : context.skip.breaks = true)
    (hvalid : ∀ arm ∈ arms, arm.Valid options context)
    (h : (writeMatch options.reduceParentheses cond arms).result = .ok code) :
    Lowers options context cond ((matchOrder arms).map (caseBranch cond)) code := by
  obtain ⟨subject, suites, hsubject, rfl, hsuites⟩ := writeMatch_ok hskip hvalid h
  exact .cases hsubject hsuites

/-! ### Switches -/

theorem labelsOf_parts (arms : List (Arm TracedCode)) :
    labelsOf (arms.flatMap Arm.parts) = arms.flatMap Arm.labels := by
  induction arms with
  | nil => rfl
  | cons arm rest ih =>
    rw [List.flatMap_cons, List.flatMap_cons, ← ih, labelsOf, List.filterMap_append, Arm.parts, List.filterMap_append]
    simp [labelsOf, List.filterMap_map]

/-- A chain that falls through has two labels or more, so its first branch has a test. -/
private theorem head_entries {arms : List (Arm TracedCode)} (hlabels : ∀ arm ∈ arms, arm.labels ≠ [])
    (hfalls : fallsThrough arms = true) (hdefault : defaultBeforeLast (arms.flatMap Arm.labels) = false) :
    ∀ entry ∈ (entries arms).head?, entry.1.isDefault = false := by
  cases arms with
  | nil => simp [entries]
  | cons arm rest =>
    cases rest with
    | nil => simp [fallsThrough] at hfalls
    | cons next more =>
      obtain ⟨label, labels, hlabel⟩ := List.exists_cons_of_ne_nil (hlabels arm (by simp))
      obtain ⟨other, others, hother⟩ := List.exists_cons_of_ne_nil (hlabels next (by simp))
      have hkept : labels ++ (other :: (others ++ more.flatMap Arm.labels)) ≠ [] := by simp
      simp only [defaultBeforeLast, List.flatMap_cons, hlabel, hother, List.cons_append,
        List.dropLast_cons_of_ne_nil hkept, List.any_cons, Bool.or_eq_false_iff] at hdefault
      simp [entries, hlabel, hdefault.1]

theorem map_fst_entries (arms : List (Arm TracedCode)) : (entries arms).map Prod.fst = arms.flatMap Arm.labels := by
  induction arms with
  | nil => rfl
  | cons arm rest ih => simp [entries, ih, Function.comp_def]

theorem writeFallthrough_ok {reduce : Bool} {arms : List (Arm TracedCode)} {code : List Code}
    (h : (writeFallthrough reduce cond arms).result = .ok code) :
    defaultBeforeLast (arms.flatMap Arm.labels) = false ∧
      (writeChain reduce cond true (entries arms)).result = .ok code := by
  rw [← regionEntries_regions]
  unfold writeFallthrough at h
  split at h
  · split at h
    · cases h
    · rename_i hdefault
      exact ⟨by simpa using hdefault, h⟩
  · split at h
    · cases h
    · rename_i hdefault
      exact ⟨by simpa using hdefault, h⟩
  · cases h

/-- Whatever value the discriminant has, the branches of the output select the statements that the switch executes,
if the labels differ. -/
theorem selected_eq_executed (options : UnitOptions) (context : Context) (after : Bool) (cond body : Node)
    {code : List Code} (h : (writeStmt options context after (.switch cond body)).result = .ok code)
    {V : Type} [DecidableEq V] (value : Node → V)
    (hdistinct : ((labelsOf (partsOf (switchItems body))).map (·.key value)).Nodup) :
    ∃ branches lowered, code = elseCode after lowered ∧
      Lowers options (context.enterLoop.withSkip .onlyBreak) cond branches lowered ∧
      ∀ v, selected value v branches = executed value v (partsOf (switchItems body)) := by
  have hskip : (context.enterLoop.withSkip .onlyBreak).skip.breaks = true := rfl
  rw [writeStmt_switch] at h
  obtain ⟨lowered, hlowered, h⟩ := bind_eq_ok.mp h
  cases h
  obtain ⟨arms, harms, hlowered⟩ := bind_eq_ok.mp hlowered
  obtain ⟨hparts, hvalid⟩ := armsOf_parts harms
  have hlabels : ∀ arm ∈ arms, arm.labels ≠ [] := fun arm harm => (hvalid arm harm).labels_ne
  rw [hparts] at hdistinct ⊢
  rw [labelsOf_parts] at hdistinct
  simp only [executed_parts value hvalid]
  split at hlowered
  · -- a switch without labels
    have hnone : arms = [] := by simpa using ‹arms.isEmpty = true›
    subst hnone
    cases hlowered
    exact ⟨[], [], rfl, .chain .nil, fun v => rfl⟩
  · split at hlowered
    · rename_i hfalls
      obtain ⟨hdefault, hchain⟩ := writeFallthrough_ok hlowered
      have hdefault' : defaultBeforeLast ((entries arms).map Prod.fst) = false := by rwa [map_fst_entries]
      have hfirst := head_entries hlabels hfalls hdefault
      exact ⟨_, _, rfl, .chain (isChain_writeChain hskip (code_entries hvalid) hdefault' (fun _ => hfirst) hchain),
        fun v => selected_chain value v hdefault'⟩
    · rename_i hfalls
      rw [Bool.not_eq_true] at hfalls
      exact ⟨_, _, rfl, lowers_writeMatch hskip hvalid hlowered,
        fun v => selected_cases value v hlabels hdistinct hfalls⟩

/-- `switch (x) { case 1: f(); case 2: g(); break; default: return; }`. -/
def fallingSwitch : Node :=
  .switch (.ident "x") (.block [
    .caseLabel (.constant "int" "1") [.call (.ident "f") none],
    .caseLabel (.constant "int" "2") [.block [.call (.ident "g") none, .breakJump]],
    .defaultLabel [.returnJump none]])

theorem selected_fallingSwitch : ∃ branches lowered,
    [.suite "if x == 1:" [.line "f()", .line "g()"], .suite "elif x == 2:" [.line "g()"],
      .suite "else:" [.line "return"]] = elseCode false lowered ∧
    Lowers {} (Context.outermost.enterLoop.withSkip .onlyBreak) (.ident "x") branches lowered ∧
    selected Node.intValue? (some 1) branches = [.call (.ident "f") none, .call (.ident "g") none] := by
  have hcode : (writeStmt {} .outermost false fallingSwitch).result = .ok [
      .suite "if x == 1:" [.line "f()", .line "g()"], .suite "elif x == 2:" [.line "g()"],
      .suite "else:" [.line "return"]] := rfl
  obtain ⟨branches, lowered, hlayout, hlowers, hselected⟩ :=
    selected_eq_executed {} .outermost false (.ident "x") _ hcode Node.intValue? (by decide)
  exact ⟨branches, lowered, hlayout, hlowers, hselected (some 1)⟩

end StubGen.CUnit
