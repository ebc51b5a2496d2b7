import Mathlib.Data.List.Infix
import Mathlib.Data.List.TakeWhile
import StubGen.LineFilter
import StubGen.Proofs.Pattern.Preferred

/-!
# Assignments to peeked stack items

The preset of the line filter turns an assignment to a peeked stack item into a call that pokes it.  The expression by
which it finds such lines does no more than cut them at fixed texts: `pokeLine` does the same without expressions, and
`LineFilter.apply_stackPoke` says that the filter is `pokeLine`, line by line.

* `AssignsPeeked` says which lines are such assignments; `peekedItem?_eq_some_iff` says that `peekedItem?` finds them.
* `first?_peekPattern` gives the preferred end of the expression.
-/

namespace StubGen

/-- The text before the index of the stack item. -/
def peekStart : List Char := "env.stack.peek(".toList

/-- The text between the index and the value assigned. -/
def peekEnd : List Char := ") = ".toList

/-- A line that assigns to a peeked stack item: blanks, and after them, without a line break, the index and the value.
The index ends where the text behind it occurs for the first time. -/
structure AssignsPeeked (line blanks index value : List Char) : Prop where
  line_eq : line = blanks ++ (peekStart ++ (index ++ (peekEnd ++ value)))
  blanks_white : ∀ c ∈ blanks, CodeSet.whiteSpace.contains c = true
  unbroken : '\n' ∉ index ++ (peekEnd ++ value)
  first : ∀ before after, index ++ (peekEnd ++ value) = before ++ (peekEnd ++ after) → index.length ≤ before.length

/-- The text before the first occurrence of a separator, and the text behind it. -/
def cutAt? (separator : List Char) : List Char → Option (List Char × List Char)
  | [] => none
  | c :: rest =>
    if separator.isPrefixOf (c :: rest) then some ([], (c :: rest).drop separator.length)
    else (cutAt? separator rest).map fun cut => (c :: cut.1, cut.2)

/-- The index and the value of a line without its blanks. -/
def peekedItem? (line : List Char) : Option (List Char × List Char) :=
  (peekStart.isPrefixOf? line).bind fun rest => if '\n' ∈ rest then none else cutAt? peekEnd rest

/-- The line with a poke in the place of an assignment to a peeked stack item. -/
def pokeLine (line : String) : String :=
  let blanks := line.toList.takeWhile CodeSet.whiteSpace.contains
  match peekedItem? (line.toList.dropWhile CodeSet.whiteSpace.contains) with
  | some (index, value) =>
    String.ofList blanks ++ "env.stack.poke(" ++ String.ofList index ++ ", " ++ String.ofList value ++ ")"
  | none => line

/-! ### Cutting -/

theorem cutAt?_eq_some_iff {separator text start ending : List Char} (hne : separator ≠ []) :
    cutAt? separator text = some (start, ending) ↔
      text = start ++ (separator ++ ending) ∧
        ∀ before after, text = before ++ (separator ++ after) → start.length ≤ before.length := by
  induction text generalizing start with
  | nil =>
    refine iff_of_false (by simp [cutAt?]) fun ⟨h, _⟩ => hne ?_
    exact (List.append_eq_nil_iff.mp (List.append_eq_nil_iff.mp h.symm).2).1
  | cons c rest ih =>
    rw [cutAt?]
    split
    · next hprefix =>
      obtain ⟨after, hafter⟩ := List.isPrefixOf_iff_prefix.mp hprefix
      rw [← hafter, List.drop_left, Option.some.injEq, Prod.mk.injEq]
      constructor
      · rintro ⟨rfl, rfl⟩
        exact ⟨rfl, fun _ _ _ => Nat.zero_le _⟩
      · rintro ⟨heq, hfirst⟩
        obtain rfl := List.eq_nil_of_length_eq_zero (Nat.le_zero.mp (hfirst [] after rfl))
        exact ⟨rfl, List.append_cancel_left heq⟩
    · next hprefix =>
      have hlater : ∀ before after, c :: rest = before ++ (separator ++ after) →
          ∃ others, before = c :: others ∧ rest = others ++ (separator ++ after) := by
        intro before after heq
        cases before with
        | nil => exact absurd (List.isPrefixOf_iff_prefix.mpr ⟨after, heq.symm⟩) hprefix
        | cons first others =>
          obtain ⟨rfl, hrest⟩ := List.cons.inj heq
          exact ⟨others, rfl, hrest⟩
      rw [Option.map_eq_some_iff]
      constructor
      · rintro ⟨⟨others, _⟩, hcut, heq⟩
        cases heq
        obtain ⟨hrest, hfirst⟩ := ih.mp hcut
        refine ⟨by rw [hrest, List.cons_append], fun before after hbefore => ?_⟩
        obtain ⟨others', rfl, heq⟩ := hlater before after hbefore
        exact Nat.succ_le_succ (hfirst others' after heq)
      · rintro ⟨heq, hfirst⟩
        obtain ⟨others, rfl, hrest⟩ := hlater start ending heq
        refine ⟨(others, ending), ih.mpr ⟨hrest, fun before after hbefore => ?_⟩, rfl⟩
        exact Nat.le_of_succ_le_succ (hfirst (c :: before) after (by rw [hbefore, List.cons_append]))

private theorem peekEnd_ne_nil : peekEnd ≠ [] := by decide

/-- The index and the value are found just in lines that assign to a peeked stack item. -/
theorem peekedItem?_eq_some_iff {line index value : List Char} :
    peekedItem? line = some (index, value) ↔ AssignsPeeked line [] index value := by
  rw [peekedItem?, Option.bind_eq_some_iff]
  constructor
  · rintro ⟨rest, hrest, h⟩
    split at h
    · cases h
    · next hbreak =>
      obtain ⟨rfl, hfirst⟩ := (cutAt?_eq_some_iff peekEnd_ne_nil).mp h
      exact ⟨(List.isPrefixOf?_eq_some_iff_append_eq.mp hrest).symm, List.forall_mem_nil _, hbreak, hfirst⟩
  · rintro ⟨hline, -, hbreak, hfirst⟩
    refine ⟨_, List.isPrefixOf?_eq_some_iff_append_eq.mpr hline.symm, ?_⟩
    rw [if_neg hbreak]
    exact (cutAt?_eq_some_iff peekEnd_ne_nil).mpr ⟨rfl, hfirst⟩

private theorem peekStart_eq : peekStart = 'e' :: "nv.stack.peek(".toList := rfl

/-- The blanks of an assignment are all those at the front of the line. -/
theorem assignsPeeked_iff {line blanks index value : List Char} :
    AssignsPeeked line blanks index value ↔
      line.takeWhile CodeSet.whiteSpace.contains = blanks ∧
        peekedItem? (line.dropWhile CodeSet.whiteSpace.contains) = some (index, value) := by
  rw [peekedItem?_eq_some_iff]
  constructor
  · rintro ⟨rfl, hblanks, hbreak, hfirst⟩
    have hmark : CodeSet.whiteSpace.contains 'e' = false := by decide
    rw [List.takeWhile_append_of_pos hblanks, List.dropWhile_append_of_pos hblanks, peekStart_eq, List.cons_append,
      List.takeWhile_cons_of_neg (by simp [hmark]), List.dropWhile_cons_of_neg (by simp [hmark]), List.append_nil]
    exact ⟨rfl, rfl, List.forall_mem_nil _, hbreak, hfirst⟩
  · rintro ⟨rfl, hline, -, hbreak, hfirst⟩
    refine ⟨?_, fun c hc => ?_, hbreak, hfirst⟩
    · rw [List.nil_append] at hline
      rw [← hline, List.takeWhile_append_dropWhile]
    · exact List.mem_takeWhile_imp hc

/-! ### The expression -/

/-- All up to the end of the line, or up to what follows. -/
def restOfLine (greedy : Bool) : Pattern := .repeated (.set false (.complement (.single '\n'))) 0 none greedy

/-- The value that is assigned. -/
def valuePattern : Pattern := .seq (.group 3 (restOfLine true)) (.assertion .textEnd)

/-- The index of the stack item, and the value. -/
def itemPattern : Pattern := .seq (.group 2 (restOfLine false)) (.literal peekEnd valuePattern)

/-- The expression of the preset. -/
def peekPattern : Pattern :=
  .seq (.assertion .textStart)
    (.seq (.group 1 (.repeated (.set false .space) 0 none true)) (.literal peekStart itemPattern))

set_option maxRecDepth 10000 in
theorem compileRule_stackPokeRule :
    LineFilter.compileRule stackPokeRule = some ⟨⟨peekPattern, []⟩, stackPokeRule.replacement⟩ := by
  rfl

section Ends

variable {before rest : List Char} (groups : List (Nat × List Char))

private theorem contains_restOfLine (c : Char) :
    (CharSet.complement (.single '\n')).contains false c = true ↔ c ≠ '\n' := by
  rw [CharSet.contains, Bool.not_eq_true', ← Bool.not_eq_true, ne_eq, CharSet.contains_single]

private theorem contains_restOfLine_eq :
    (CharSet.complement (.single '\n')).contains false = fun c => decide (c ≠ '\n') :=
  funext fun c => Bool.eq_iff_iff.mpr ((contains_restOfLine c).trans decide_eq_true_iff.symm)

private theorem since_append (taken before rest rest' : List Char) (groups groups' : List (Nat × List Char)) :
    (Cursor.mk (taken.reverse ++ before) rest groups).since ⟨before, rest', groups'⟩ = taken := by
  simp [Cursor.since, Cursor.position]

/-- A value goes to the end of the text, where there is no line break. -/
private theorem first?_valuePattern (before rest : List Char) :
    valuePattern.first? ⟨before, rest, groups⟩ =
      if '\n' ∈ rest then none else some ⟨rest.reverse ++ before, [], (3, rest) :: groups⟩ := by
  have hinside : ∀ before' c rest', (CharSet.complement (.single '\n')).contains false c = true →
      (Pattern.assertion .textEnd).first?
        ⟨before', c :: rest', (3, (Cursor.mk before' (c :: rest') groups).since ⟨before, rest, groups⟩) :: groups⟩ =
          none := fun _ _ _ _ => rfl
  rw [valuePattern, Pattern.first?_group_seq, restOfLine, Pattern.ends_repeated_set, if_pos rfl,
    findSome?_reverse_places before rest groups hinside, since_append, contains_restOfLine_eq]
  split
  · next hbreak =>
    -- something is left behind the last place, so the end is not reached
    obtain ⟨c, rest', hdrop⟩ : ∃ c rest', rest.dropWhile (fun c => decide (c ≠ '\n')) = c :: rest' := by
      refine List.exists_cons_of_ne_nil fun hnil => ?_
      simpa using List.dropWhile_eq_nil_iff.mp hnil '\n' hbreak
    rw [hdrop]
    rfl
  · next hbreak =>
    have hall : ∀ c ∈ rest, decide (c ≠ '\n') = true := fun c hc =>
      decide_eq_true fun heq => hbreak (heq ▸ hc)
    rw [List.takeWhile_eq_self_iff.mpr hall, List.dropWhile_eq_nil_iff.mpr hall]
    rfl

/-- The index ends at the first place where its end occurs. -/
private theorem first?_itemPattern (before rest : List Char) :
    itemPattern.first? ⟨before, rest, groups⟩ =
      if '\n' ∈ rest then none
      else (cutAt? peekEnd rest).map fun cut => ⟨rest.reverse ++ before, [], (3, cut.2) :: (2, cut.1) :: groups⟩ := by
  rw [itemPattern, Pattern.first?_group_seq, restOfLine, Pattern.ends_repeated_set, if_neg Bool.false_ne_true]
  split
  · next hbreak =>
    -- a place lies before the line break, so there is no value behind it
    refine List.findSome?_eq_none_iff.mpr fun place hplace => ?_
    obtain ⟨taken, hrest, htaken, -, -⟩ := CharSet.exists_of_mem_places hplace
    have hbehind : '\n' ∈ place.rest := by
      rw [hrest] at hbreak
      exact (List.mem_append.mp hbreak).resolve_left fun hmem => contains_restOfLine '\n' |>.mp (htaken _ hmem) rfl
    obtain ⟨before', rest', groups'⟩ := place
    by_cases hprefix : peekEnd <+: rest'
    · obtain ⟨after, rfl⟩ := hprefix
      have hend : '\n' ∉ peekEnd := by decide
      rw [Pattern.first?_literal, first?_valuePattern, if_pos ((List.mem_append.mp hbehind).resolve_left hend)]
    · exact Pattern.first?_literal_of_not_prefix _ _ hprefix
  · next hbreak =>
    -- the places behind `taken`, up to which there has been no end of the index
    suffices h : ∀ taken rest', '\n' ∉ rest' →
        ((CharSet.complement (.single '\n')).places false (taken.reverse ++ before) groups rest').findSome?
            (fun reached => (Pattern.literal peekEnd valuePattern).first?
              { reached with groups := (2, reached.since ⟨before, rest, groups⟩) :: reached.groups }) =
          (cutAt? peekEnd rest').map fun cut =>
            ⟨rest'.reverse ++ (taken.reverse ++ before), [], (3, cut.2) :: (2, taken ++ cut.1) :: groups⟩ from
      h [] rest hbreak
    clear hbreak
    intro taken rest' hbreak
    induction rest' generalizing taken with
    | nil =>
      rw [CharSet.places, List.findSome?_singleton]
      exact Pattern.first?_literal_of_not_prefix _ _ fun hprefix => peekEnd_ne_nil (List.prefix_nil.mp hprefix)
    | cons c rest' ih =>
      obtain ⟨hc, hrest'⟩ := not_or.mp (List.mem_cons.not.mp hbreak)
      rw [CharSet.places, if_pos ((contains_restOfLine c).mpr (Ne.symm hc)), List.findSome?_cons, since_append, cutAt?]
      by_cases hprefix : peekEnd <+: c :: rest'
      · obtain ⟨after, hafter⟩ := hprefix
        have hvalue : '\n' ∉ after := fun hmem => hbreak (hafter ▸ List.mem_append_right _ hmem)
        rw [if_pos (List.isPrefixOf_iff_prefix.mpr ⟨after, hafter⟩), ← hafter, Pattern.first?_literal,
          first?_valuePattern, if_neg hvalue, List.drop_left]
        simp
      · rw [if_neg (List.isPrefixOf_iff_prefix.not.mpr hprefix), Pattern.first?_literal_of_not_prefix _ _ hprefix]
        have hlater := ih (taken ++ [c]) hrest'
        rw [List.reverse_append, List.reverse_singleton, List.append_assoc] at hlater
        rw [Option.map_map]
        refine hlater.trans ?_
        simp [Function.comp_def]

/-- The expression has a match at the start of a line just if the line assigns to a peeked stack item, and the match
is the whole line. -/
private theorem first?_peekPattern (line : List Char) :
    peekPattern.first? ⟨[], line, []⟩ =
      (peekedItem? (line.dropWhile CodeSet.whiteSpace.contains)).map fun item =>
        ⟨line.reverse, [], [(3, item.2), (2, item.1), (1, line.takeWhile CodeSet.whiteSpace.contains)]⟩ := by
  have hstart : ∀ before' c rest', CharSet.space.contains false c = true →
      (Pattern.literal peekStart itemPattern).first?
        ⟨before', c :: rest', (1, (Cursor.mk before' (c :: rest') []).since ⟨[], line, []⟩) :: []⟩ = none := by
    intro before' c rest' hc
    refine Pattern.first?_literal_of_not_prefix _ _ fun hprefix => ?_
    rw [peekStart_eq, List.cons_prefix_cons] at hprefix
    have hmark : CharSet.space.contains false 'e' = false := by decide
    rw [← hprefix.1, hmark] at hc
    cases hc
  have hspace : CharSet.space.contains false = CodeSet.whiteSpace.contains := rfl
  have hholds : Assertion.textStart.holds ⟨[], line, []⟩ = true := rfl
  rw [peekPattern, Pattern.first?_assertion_seq, if_pos hholds, Pattern.first?_group_seq, Pattern.ends_repeated_set,
    if_pos rfl, findSome?_reverse_places [] line [] hstart, since_append, hspace, peekedItem?]
  cases hcut : peekStart.isPrefixOf? (line.dropWhile CodeSet.whiteSpace.contains) with
  | none =>
    refine Pattern.first?_literal_of_not_prefix _ _ fun hprefix => ?_
    have hsome := List.isSome_isPrefixOf?_eq_isPrefixOf peekStart (line.dropWhile CodeSet.whiteSpace.contains)
    rw [hcut, List.isPrefixOf_iff_prefix.mpr hprefix] at hsome
    cases hsome
  | some rest =>
    have hdrop := List.isPrefixOf?_eq_some_iff_append_eq.mp hcut
    have hline : line.reverse =
        rest.reverse ++ (peekStart.reverse ++ (line.takeWhile CodeSet.whiteSpace.contains).reverse) := by
      conv => lhs; rw [← List.takeWhile_append_dropWhile (p := CodeSet.whiteSpace.contains) (l := line), ← hdrop]
      simp
    rw [← hdrop, Pattern.first?_literal, first?_itemPattern, Option.bind_some, List.append_nil, hline]
    split <;> rfl

/-- Behind the start of a line there is no match. -/
private theorem first?_peekPattern_cons (c : Char) :
    peekPattern.first? ⟨c :: before, rest, groups⟩ = none := by
  rw [peekPattern, Pattern.first?_assertion_seq]
  rfl

end Ends

/-! ### The filter -/

/-- The expression of the preset, compiled. -/
def peekCompiled : CompiledPattern := ⟨peekPattern, []⟩

private theorem isAnchored_peekCompiled : peekCompiled.IsAnchored := fun c _ _ => first?_peekPattern_cons [] c

/-- What stands in the place of a match. -/
private theorem expand_replacement (start : Cursor) (before blanks index value : List Char) :
    (TemplatePart.parts stackPokeRule.replacement).flatMap
        (TemplatePart.expand [] ⟨start, ⟨before, [], [(3, value), (2, index), (1, blanks)]⟩⟩) =
      blanks ++ ("env.stack.poke(".toList ++ (index ++ (", ".toList ++ (value ++ [')'])))) := by
  have hparts : TemplatePart.parts stackPokeRule.replacement =
      .reference ['1'] :: ("env.stack.poke(".toList.map .char ++
        .reference ['2'] :: (", ".toList.map .char ++ [.reference ['3'], .char ')'])) := by
    decide
  let found : Match := ⟨start, ⟨before, [], [(3, value), (2, index), (1, blanks)]⟩⟩
  have hchars : ∀ chars : List Char, (chars.map .char).flatMap (TemplatePart.expand [] found) = chars := fun chars => by
    rw [List.flatMap_map]
    exact List.flatMap_singleton' chars
  have hblanks : TemplatePart.expand [] found (.reference ['1']) = blanks := rfl
  have hindex : TemplatePart.expand [] found (.reference ['2']) = index := rfl
  have hvalue : TemplatePart.expand [] found (.reference ['3']) = value := rfl
  have hclose : TemplatePart.expand [] found (.char ')') = [')'] := rfl
  rw [hparts, List.flatMap_cons, List.flatMap_append, hchars, List.flatMap_cons, List.flatMap_append, hchars,
    List.flatMap_cons, List.flatMap_singleton, hblanks, hindex, hvalue, hclose]

/-- The rule of the preset works on a line as `pokeLine` does. -/
private theorem substitute_peekCompiled (line : String) :
    peekCompiled.substitute stackPokeRule.replacement line = pokeLine line := by
  have hfirst := first?_peekPattern line.toList
  rw [CompiledPattern.substitute, pokeLine]
  cases hitem : peekedItem? (line.toList.dropWhile CodeSet.whiteSpace.contains) with
  | none =>
    rw [hitem] at hfirst
    rw [isAnchored_peekCompiled.replaceAll_of_none _ hfirst, String.ofList_toList]
  | some item =>
    obtain ⟨index, value⟩ := item
    obtain ⟨hline, -, -, -⟩ := peekedItem?_eq_some_iff.mp hitem
    obtain ⟨c, before, hreverse⟩ : ∃ c before, line.toList.reverse = c :: before := by
      refine List.exists_cons_of_ne_nil fun hnil => ?_
      rw [List.reverse_eq_nil_iff.mp hnil] at hline
      cases hline
    rw [hitem, Option.map_some, hreverse] at hfirst
    rw [isAnchored_peekCompiled.replaceAll_of_some _ hfirst]
    refine String.ext ?_
    rw [String.toList_ofList]
    refine (expand_replacement _ _ _ _ _).trans ?_
    simp [String.toList_append]

/-- The filter of the preset alone. -/
def stackPokeFilter : LineFilter := ⟨none, [⟨peekCompiled, stackPokeRule.replacement⟩]⟩

private theorem ofOptions_stackPoke : LineFilter.ofOptions { stackPoke := true } = some stackPokeFilter := by
  have hrules : ([stackPokeRule] ++ []).mapM LineFilter.compileRule =
      some [⟨peekCompiled, stackPokeRule.replacement⟩] := by
    rw [List.append_nil, List.mapM_cons, compileRule_stackPokeRule]
    rfl
  rw [LineFilter.ofOptions]
  simp only [if_pos, hrules]
  rfl

private theorem apply_stackPokeFilter (lines : List String) : stackPokeFilter.apply lines = lines.map pokeLine :=
  List.map_congr_left fun line _ => substitute_peekCompiled line

/-- What the preset makes of a line. -/
inductive Poked : String → String → Prop
  | poke {line : String} {blanks index value : List Char} : AssignsPeeked line.toList blanks index value →
      Poked line
        (String.ofList blanks ++ "env.stack.poke(" ++ String.ofList index ++ ", " ++ String.ofList value ++ ")")
  | keep {line : String} : (¬∃ blanks index value, AssignsPeeked line.toList blanks index value) → Poked line line

private theorem poked_pokeLine (line : String) : Poked line (pokeLine line) := by
  rw [pokeLine]
  cases hitem : peekedItem? (line.toList.dropWhile CodeSet.whiteSpace.contains) with
  | none =>
    refine .keep fun ⟨blanks, index, value, h⟩ => ?_
    rw [(assignsPeeked_iff.mp h).2] at hitem
    cases hitem
  | some item => exact .poke (assignsPeeked_iff.mpr ⟨rfl, hitem⟩)

/-- A line with a poke does not assign to a peeked stack item. -/
private theorem pokeLine_idem (line : String) : pokeLine (pokeLine line) = pokeLine line := by
  cases hitem : peekedItem? (line.toList.dropWhile CodeSet.whiteSpace.contains) with
  | none =>
    have hkept : pokeLine line = line := by rw [pokeLine, hitem]
    rw [hkept, hkept]
  | some item =>
    obtain ⟨rest, hpoked⟩ : ∃ rest, (pokeLine line).toList =
        line.toList.takeWhile CodeSet.whiteSpace.contains ++ ("env.stack.poke(".toList ++ rest) := by
      rw [pokeLine, hitem]
      simp only [String.toList_append, String.toList_ofList, List.append_assoc]
      exact ⟨_, rfl⟩
    have hdrop : (pokeLine line).toList.dropWhile CodeSet.whiteSpace.contains = "env.stack.poke(".toList ++ rest := by
      rw [hpoked, List.dropWhile_append_of_pos fun c hc => List.mem_takeWhile_imp hc]
      exact List.dropWhile_cons_of_neg (by decide)
    have hnone : peekedItem? ("env.stack.poke(".toList ++ rest) = none := rfl
    rw [pokeLine, hdrop, hnone]

/-- The preset does to each line what `pokeLine` does: a line that assigns to a peeked stack item becomes a poke, each
other one stays.  So there are as many lines as before, and nothing is left to do for a second time. -/
theorem LineFilter.apply_stackPoke :
    ∃ filter, ofOptions { stackPoke := true } = some filter ∧
      (∀ lines, filter.apply lines = lines.map pokeLine) ∧
      (∀ line, Poked line (pokeLine line)) ∧
      (∀ lines, (filter.apply lines).length = lines.length) ∧
      ∀ lines, filter.apply (filter.apply lines) = filter.apply lines := by
  refine ⟨stackPokeFilter, ofOptions_stackPoke, apply_stackPokeFilter, poked_pokeLine,
    fun lines => ?_, fun lines => ?_⟩
  · exact length_apply_of_no_marker stackPokeFilter lines rfl
  · rw [apply_stackPokeFilter, apply_stackPokeFilter, List.map_map]
    exact List.map_congr_left fun line _ => pokeLine_idem line

/-- The index ends at the first text that can stand behind it. -/
example : pokeLine "    env.stack.peek(f(0)) = (a) = b" = "    env.stack.poke(f(0), (a) = b)" := by rfl

end StubGen
