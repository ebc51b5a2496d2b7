import StubGen.Pattern.Matcher

/-!
# Preferred ends

Of the places where a match can end only the preferred one counts in the end, so a match of a sequence is found by
trying what follows at each end of its first part, in the order of preference.

* `Pattern.first?_seq` and `Pattern.first?_literal` give the preferred end of a sequence and of a text.
* `Pattern.ends_repeated_set`: a repeated set of characters ends after each part of the run of them, and
  `findSome?_reverse_places` says when only the whole run counts.
* An anchored expression (`CompiledPattern.IsAnchored`) is tried at the start of a text only, so it replaces the text as
  a whole or not at all.
-/

namespace StubGen

namespace Cursor

/-- Keeps a cursor, unless its position has been seen. -/
private def keep (kept : List Cursor × List Nat) (cursor : Cursor) : List Cursor × List Nat :=
  if kept.2.contains cursor.position then kept else (cursor :: kept.1, cursor.position :: kept.2)

private theorem distinct_eq (cursors : List Cursor) : distinct cursors = (cursors.foldl keep ([], [])).1.reverse := rfl

private theorem getLast?_foldl_keep (cursors : List Cursor) (kept : List Cursor × List Nat) (h : kept.1 ≠ []) :
    (cursors.foldl keep kept).1.getLast? = kept.1.getLast? := by
  induction cursors generalizing kept with
  | nil => rfl
  | cons cursor rest ih =>
    rw [List.foldl_cons, keep]
    split
    · exact ih kept h
    · rw [ih _ (List.cons_ne_nil _ _)]
      exact List.getLast?_cons_of_ne_nil h

/-- The preferred place stays. -/
@[simp] theorem head?_distinct (cursors : List Cursor) : (distinct cursors).head? = cursors.head? := by
  cases cursors with
  | nil => rfl
  | cons cursor rest =>
    rw [distinct_eq, List.head?_reverse, List.foldl_cons]
    exact getLast?_foldl_keep rest ([cursor], [cursor.position]) (List.cons_ne_nil _ _)

private theorem foldl_keep (cursors : List Cursor) (kept : List Cursor × List Nat)
    (hnodup : (cursors.map position).Nodup) (hseen : ∀ cursor ∈ cursors, cursor.position ∉ kept.2) :
    (cursors.foldl keep kept).1 = cursors.reverse ++ kept.1 := by
  induction cursors generalizing kept with
  | nil => rfl
  | cons cursor rest ih =>
    obtain ⟨hfirst, hrest⟩ := List.forall_mem_cons.mp hseen
    rw [List.map_cons, List.nodup_cons] at hnodup
    rw [List.foldl_cons, keep, if_neg (by simpa using hfirst), ih _ hnodup.2, List.reverse_cons, List.append_assoc]
    · rfl
    · intro other hother hmem
      rcases List.mem_cons.mp hmem with heq | hmem
      · exact hnodup.1 (heq ▸ List.mem_map_of_mem hother)
      · exact hrest other hother hmem

/-- Places at different positions all stay. -/
theorem distinct_of_nodup {cursors : List Cursor} (h : (cursors.map position).Nodup) : distinct cursors = cursors := by
  rw [distinct_eq, foldl_keep cursors ([], []) h (fun _ _ => List.not_mem_nil), List.append_nil, List.reverse_reverse]

end Cursor

theorem CharSet.contains_single {c other : Char} : (single c).contains false other = true ↔ other = c := by
  simp only [single, contains, Bool.false_eq_true, if_false, decide_eq_true_eq]
  exact ⟨fun ⟨hle, hge⟩ => Char.le_antisymm hge hle, fun h => h ▸ ⟨Char.le_refl _, Char.le_refl _⟩⟩

namespace Pattern

/-- The preferred place where a match that starts at the cursor can end. -/
def first? (pattern : Pattern) (cursor : Cursor) : Option Cursor := (pattern.ends cursor).head?

theorem ends_set_nil (fold : Bool) (members : CharSet) (before : List Char) (groups : List (Nat × List Char)) :
    (set fold members).ends ⟨before, [], groups⟩ = [] := rfl

theorem ends_set_cons (fold : Bool) (members : CharSet) (c : Char) (before rest : List Char)
    (groups : List (Nat × List Char)) :
    (set fold members).ends ⟨before, c :: rest, groups⟩ =
      if members.contains fold c then [⟨c :: before, rest, groups⟩] else [] := rfl

/-- A match of a sequence goes on from the preferred end of the first part from which it can. -/
theorem first?_seq (first second : Pattern) (cursor : Cursor) :
    (seq first second).first? cursor = (first.ends cursor).findSome? second.first? := by
  rw [first?, ends, Cursor.head?_distinct, List.head?_flatMap]
  rfl

theorem first?_assertion_seq (condition : Assertion) (next : Pattern) (cursor : Cursor) :
    (seq (.assertion condition) next).first? cursor = if condition.holds cursor then next.first? cursor else none := by
  rw [first?_seq, ends]
  split <;> simp

/-- A group remembers the text between its ends. -/
theorem first?_group_seq (index : Nat) (inner next : Pattern) (cursor : Cursor) :
    (seq (.group index inner) next).first? cursor =
      (inner.ends cursor).findSome? fun reached =>
        next.first? { reached with groups := (index, reached.since cursor) :: reached.groups } := by
  rw [first?_seq, ends, List.findSome?_map]
  rfl

/-- A text, and what follows it. -/
def literal (text : List Char) (next : Pattern) : Pattern :=
  text.foldr (fun c rest => .seq (.set false (.single c)) rest) next

/-- A match of a text goes on behind it. -/
theorem first?_literal (text : List Char) (next : Pattern) (before after : List Char)
    (groups : List (Nat × List Char)) :
    (literal text next).first? ⟨before, text ++ after, groups⟩ =
      next.first? ⟨text.reverse ++ before, after, groups⟩ := by
  induction text generalizing before with
  | nil => rfl
  | cons c rest ih =>
    have hstep := ih (c :: before)
    rw [literal, List.foldr_cons, first?_seq, List.cons_append, ends_set_cons, if_pos (CharSet.contains_single.mpr rfl)]
    simpa [literal] using hstep

/-- There is no match of a text where another one stands. -/
theorem first?_literal_of_not_prefix {text : List Char} (next : Pattern) {before after : List Char}
    (groups : List (Nat × List Char)) (h : ¬text <+: after) :
    (literal text next).first? ⟨before, after, groups⟩ = none := by
  induction text generalizing before after with
  | nil => exact absurd List.nil_prefix h
  | cons c rest ih =>
    rw [literal, List.foldr_cons, first?_seq]
    cases after with
    | nil => rfl
    | cons other after =>
      rw [ends_set_cons]
      split
      · next hmem =>
        obtain rfl := CharSet.contains_single.mp hmem
        have hrest : ¬rest <+: after := fun hprefix => h (List.cons_prefix_cons.mpr ⟨rfl, hprefix⟩)
        have hnone : (literal rest next).first? ⟨other :: before, after, groups⟩ = none := ih hrest
        simpa [literal] using hnone
      · rfl

end Pattern

/-! ### Repeated sets of characters -/

section Places

variable (fold : Bool) (members : CharSet)

/-- The places in and at the end of the run of members after a cursor, the cursor itself first. -/
def CharSet.places (before : List Char) (groups : List (Nat × List Char)) : List Char → List Cursor
  | [] => [⟨before, [], groups⟩]
  | c :: rest =>
    ⟨before, c :: rest, groups⟩ ::
      if members.contains fold c then CharSet.places (c :: before) groups rest else []

variable {fold members}

/-- A place lies behind some members. -/
theorem CharSet.exists_of_mem_places {before rest : List Char} {groups : List (Nat × List Char)} {place : Cursor}
    (h : place ∈ members.places fold before groups rest) :
    ∃ taken, rest = taken ++ place.rest ∧ (∀ c ∈ taken, members.contains fold c = true) ∧
      place.before = taken.reverse ++ before ∧ place.groups = groups := by
  induction rest generalizing before with
  | nil =>
    obtain rfl := List.mem_singleton.mp h
    exact ⟨[], rfl, List.forall_mem_nil _, rfl, rfl⟩
  | cons c rest ih =>
    rw [places] at h
    rcases List.mem_cons.mp h with rfl | h
    · exact ⟨[], rfl, List.forall_mem_nil _, rfl, rfl⟩
    · split at h
      · next hc =>
        obtain ⟨taken, hrest, htaken, hbefore, hgroups⟩ := ih h
        refine ⟨c :: taken, by rw [hrest, List.cons_append], List.forall_mem_cons.mpr ⟨hc, htaken⟩, ?_, hgroups⟩
        rw [hbefore, List.reverse_cons, List.append_assoc]
        rfl
      · cases h

private theorem nodup_places (before rest : List Char) (groups : List (Nat × List Char)) :
    ((members.places fold before groups rest).map Cursor.position).Nodup := by
  induction rest generalizing before with
  | nil => simp [CharSet.places]
  | cons c rest ih =>
    rw [CharSet.places, List.map_cons, List.nodup_cons]
    split
    · refine ⟨fun hmem => ?_, ih (c :: before)⟩
      obtain ⟨place, hplace, heq⟩ := List.mem_map.mp hmem
      obtain ⟨taken, -, -, hbefore, -⟩ := CharSet.exists_of_mem_places hplace
      simp only [Cursor.position, hbefore, List.length_append, List.length_cons] at heq
      omega
    · exact ⟨List.not_mem_nil, List.nodup_nil⟩

/-- The places in the order in which a repetition prefers them. -/
private def preferring (greedy : Bool) (places : List Cursor) : List Cursor :=
  if greedy then places.reverse else places

private theorem withSelf_preferring (greedy : Bool) (cursor : Cursor) (further : List Cursor) :
    Repetition.withSelf greedy cursor (preferring greedy further) = preferring greedy (cursor :: further) := by
  cases greedy <;> simp [Repetition.withSelf, preferring]

private theorem preferring_nil (greedy : Bool) : preferring greedy [] = [] := by cases greedy <;> rfl

section Rounds

variable {round : Cursor → List Cursor} {cursor reached : Cursor}

/-- A place that has no round behind it. -/
private theorem explore_of_nil (h : round cursor = []) (greedy : Bool) (fuel : Nat) {visited : List Nat}
    (hnew : cursor.position ∉ visited) :
    (Repetition.explore round greedy (fuel + 1) visited cursor).1 = preferring greedy [cursor] := by
  rw [Repetition.explore, if_neg (by simpa using hnew), h, ← withSelf_preferring, preferring_nil]
  rfl

/-- A place with a single round behind it. -/
private theorem explore_of_singleton (h : round cursor = [reached]) (hlt : cursor.position < reached.position)
    (greedy : Bool) (fuel : Nat) {visited : List Nat} (hnew : cursor.position ∉ visited) :
    (Repetition.explore round greedy (fuel + 1) visited cursor).1 =
      Repetition.withSelf greedy cursor
        (Repetition.explore round greedy fuel (cursor.position :: visited) reached).1 := by
  rw [Repetition.explore, if_neg (by simpa using hnew), h, List.filter_cons_of_pos (by simpa using hlt)]
  rfl

private theorem oneOrMore_of_nil (h : round cursor = []) (greedy : Bool) :
    Repetition.oneOrMore round greedy cursor = [] := by
  rw [Repetition.oneOrMore, h]
  rfl

private theorem oneOrMore_of_singleton (h : round cursor = [reached]) (hne : reached.position ≠ cursor.position)
    (greedy : Bool) :
    Repetition.oneOrMore round greedy cursor =
      (Repetition.explore round greedy (reached.rest.length + 1) [] reached).1 := by
  rw [Repetition.oneOrMore, h, List.foldl_cons]
  simp only [if_neg hne, List.foldl_nil, List.nil_append]

end Rounds

/-- Rounds of one character visit each place of the run once. -/
private theorem explore_set (greedy : Bool) (fuel : Nat) (visited : List Nat) (before rest : List Char)
    (groups : List (Nat × List Char)) (hfuel : rest.length ≤ fuel)
    (hvisited : ∀ position ∈ visited, position < before.length) :
    (Repetition.explore (Pattern.set fold members).ends greedy (fuel + 1) visited ⟨before, rest, groups⟩).1 =
      preferring greedy (members.places fold before groups rest) := by
  have hnew : before.length ∉ visited := fun hmem => Nat.lt_irrefl _ (hvisited _ hmem)
  induction rest generalizing fuel visited before with
  | nil => exact explore_of_nil (Pattern.ends_set_nil ..) greedy fuel hnew
  | cons c rest ih =>
    have hends := Pattern.ends_set_cons fold members c before rest groups
    rw [CharSet.places]
    split
    · next hc =>
      obtain ⟨fuel, rfl⟩ := Nat.exists_eq_add_of_le' (Nat.succ_le_of_lt (Nat.lt_of_lt_of_le (Nat.succ_pos _) hfuel))
      rw [if_pos hc] at hends
      have hnext : ∀ position ∈ before.length :: visited, position < (c :: before).length := by
        intro position hmem
        rcases List.mem_cons.mp hmem with rfl | hmem
        · exact Nat.lt_succ_self _
        · exact Nat.lt_succ_of_lt (hvisited position hmem)
      have hrest := ih fuel _ (c :: before) (Nat.le_of_succ_le_succ hfuel) hnext fun hmem =>
        Nat.lt_irrefl _ (hnext _ hmem)
      rw [← withSelf_preferring, ← hrest]
      exact explore_of_singleton hends (Nat.lt_succ_self _) greedy _ hnew
    · next hc =>
      rw [if_neg hc] at hends
      exact explore_of_nil hends greedy fuel hnew

/-- The ends of a repeated set: the places in the run of its members, the last or the first one preferred. -/
theorem Pattern.ends_repeated_set (greedy : Bool) (before rest : List Char) (groups : List (Nat × List Char)) :
    (Pattern.repeated (.set fold members) 0 none greedy).ends ⟨before, rest, groups⟩ =
      if greedy then (members.places fold before groups rest).reverse else members.places fold before groups rest := by
  have hrounds : Repetition.withSelf greedy ⟨before, rest, groups⟩
      (Repetition.oneOrMore (Pattern.set fold members).ends greedy ⟨before, rest, groups⟩) =
        preferring greedy (members.places fold before groups rest) := by
    cases rest with
    | nil => rw [oneOrMore_of_nil (ends_set_nil ..), CharSet.places, ← withSelf_preferring, preferring_nil]
    | cons c rest =>
      have hends := ends_set_cons fold members c before rest groups
      rw [CharSet.places]
      split
      · next hc =>
        rw [if_pos hc] at hends
        rw [oneOrMore_of_singleton hends (Nat.succ_ne_self _), ← withSelf_preferring,
          explore_set greedy rest.length [] (c :: before) rest groups (Nat.le_refl _) (List.forall_mem_nil _)]
      · next hc =>
        rw [if_neg hc] at hends
        rw [oneOrMore_of_nil hends, ← withSelf_preferring, preferring_nil]
  have hnodup : ((preferring greedy (members.places fold before groups rest)).map Cursor.position).Nodup := by
    have hplaces : ((members.places fold before groups rest).map Cursor.position).Nodup :=
      nodup_places before rest groups
    cases greedy with
    | false => exact hplaces
    | true =>
      rw [preferring, if_pos rfl, List.map_reverse]
      exact List.pairwise_reverse.mpr (hplaces.imp Ne.symm)
  rw [ends, Repetition.ends, hrounds, Cursor.distinct_of_nodup hnodup]
  rfl

/-- If nothing that follows can start with a member, only the place behind the whole run counts. -/
theorem findSome?_reverse_places {α : Type} {next : Cursor → Option α} (before rest : List Char)
    (groups : List (Nat × List Char))
    (h : ∀ before c rest, members.contains fold c = true → next ⟨before, c :: rest, groups⟩ = none) :
    (members.places fold before groups rest).reverse.findSome? next =
      next ⟨(rest.takeWhile (members.contains fold)).reverse ++ before, rest.dropWhile (members.contains fold),
        groups⟩ := by
  induction rest generalizing before with
  | nil => rw [CharSet.places, List.reverse_singleton, List.findSome?_singleton]; rfl
  | cons c rest ih =>
    rw [CharSet.places, List.reverse_cons, List.findSome?_append, List.findSome?_singleton]
    split
    · next hc =>
      rw [h before c rest hc, Option.or_none, ih, List.takeWhile_cons_of_pos hc, List.dropWhile_cons_of_pos hc,
        List.reverse_cons, List.append_assoc]
      rfl
    · next hc =>
      rw [List.takeWhile_cons_of_neg hc, List.dropWhile_cons_of_neg hc]
      rfl

end Places

/-! ### Anchored expressions -/

namespace CompiledPattern

variable {compiled : CompiledPattern}

private theorem findFrom_cons (c : Char) (before rest : List Char) :
    compiled.findFrom before (c :: rest) =
      ((compiled.pattern.first? ⟨before, c :: rest, []⟩).map (⟨⟨before, c :: rest, []⟩, ·⟩)).or
        (compiled.findFrom (c :: before) rest) := by
  rw [findFrom, Pattern.first?]
  cases compiled.pattern.ends ⟨before, c :: rest, []⟩ <;> rfl

/-- A match of the expression starts nowhere but at the start of the text. -/
def IsAnchored (compiled : CompiledPattern) : Prop :=
  ∀ c before rest, compiled.pattern.first? ⟨c :: before, rest, []⟩ = none

namespace IsAnchored

private theorem findFrom_eq_none (h : compiled.IsAnchored) (c : Char) (before rest : List Char) :
    compiled.findFrom (c :: before) rest = none := by
  induction rest generalizing c before with
  | nil =>
    change (compiled.pattern.first? ⟨c :: before, [], []⟩).map _ = none
    rw [h c before []]
    rfl
  | cons next rest ih =>
    rw [findFrom_cons, h c before, ih next (c :: before)]
    rfl

private theorem find?_start (h : compiled.IsAnchored) (text : List Char) :
    compiled.find? (.start text) = (compiled.pattern.first? (.start text)).map (⟨.start text, ·⟩) := by
  cases text with
  | nil => rfl
  | cons c rest =>
    change compiled.findFrom [] (c :: rest) = _
    rw [findFrom_cons, h.findFrom_eq_none, Option.or_none]
    rfl

/-- A text without a match stays. -/
theorem replaceAll_of_none (h : compiled.IsAnchored) (replace : Match → List Char) {text : List Char}
    (hnone : compiled.pattern.first? (.start text) = none) : compiled.replaceAll replace text = text := by
  have hnext : compiled.nextMatch? none (.start text) = none := by
    rw [nextMatch?, h.find?_start, hnone]
    rfl
  rw [replaceAll, replaceFrom, hnext]
  rfl

/-- Of a text that is a match as a whole nothing stays. -/
theorem replaceAll_of_some (h : compiled.IsAnchored) (replace : Match → List Char) {text : List Char} {c : Char}
    {before : List Char} {groups : List (Nat × List Char)}
    (hsome : compiled.pattern.first? (.start text) = some ⟨c :: before, [], groups⟩) :
    compiled.replaceAll replace text = replace ⟨.start text, ⟨c :: before, [], groups⟩⟩ := by
  have hnext : compiled.nextMatch? none (.start text) = some ⟨.start text, ⟨c :: before, [], groups⟩⟩ := by
    rw [nextMatch?, h.find?_start, hsome]
    rfl
  have hbehind : ∀ fuel lastEnd,
      compiled.replaceFrom replace fuel lastEnd ⟨c :: before, [], []⟩ = [] := by
    intro fuel lastEnd
    cases fuel with
    | zero => rfl
    | succ fuel =>
      have hfind : compiled.find? ⟨c :: before, [], []⟩ = none := h.findFrom_eq_none c before []
      rw [replaceFrom, nextMatch?, hfind]
      rfl
  rw [replaceAll, replaceFrom, hnext]
  simp only [hbehind, List.append_nil]
  rfl

end IsAnchored

end CompiledPattern

end StubGen
