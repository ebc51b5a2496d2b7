import Mathlib.Tactic.SplitIfs
import StubGen.Proofs.Name.Casing

/-!
# Low lines in names

A name of ASCII characters that has both cases differs from its snake-cased form in capitals and low lines only, and
the low lines of the form are those between words (`snakeForm_snakeCase`).

* `spaced` writes a name as its letters, each with the number of low lines ahead of it.
* `Respaced` relates two such names that differ in these numbers only, by a rule for the gap ahead of a letter.  Each
  step of snake-casing has its rule (`wordGap`, `joinedGap`, `humpGap`), and the whole has theirs one after the other.
-/

namespace StubGen

/-- Whether a character can end a hump: a lower-case letter or a digit. -/
def isSmall (c : Char) : Bool := isAsciiLower c || c.isDigit

/-- The characters that are no low lines. -/
def bare (chars : List Char) : List Char := chars.filter (· ≠ '_')

/-- The number of low lines at the front. -/
def lowsAhead (chars : List Char) : Nat := (chars.takeWhile (· = '_')).length

/-- A name and its snake-cased form: all that differs is case and low lines, no low lines are gained at either end,
humps are split, and low lines stand alone if they did before. -/
structure SnakeForm (name snake : List Char) : Prop where
  letters : bare snake = bare (name.map Char.toLower)
  small : ∀ c ∈ snake, isAsciiUpper c = false
  front : lowsAhead snake ≤ lowsAhead name
  back : lowsAhead snake.reverse ≤ lowsAhead name.reverse
  humps : ∀ {before small capital after}, name = before ++ small :: capital :: after → isSmall small = true →
    isAsciiUpper capital = true → ∃ front back, snake = front ++ small :: '_' :: capital.toLower :: back ∧
      bare front = bare (before.map Char.toLower) ∧ bare back = bare (after.map Char.toLower)
  single : ['_', '_'] <:+: snake → ['_', '_'] <:+: name

/-! ### Letters and low lines -/

/-- A character that is no low line, with the number of low lines ahead of it. -/
structure Letter where
  lows : Nat
  char : Char

/-- The letters of a name written out, and the low lines at its end. -/
def spaced : List Letter → Nat → List Char
  | [], lows => List.replicate lows '_'
  | letter :: rest, lows => List.replicate letter.lows '_' ++ letter.char :: spaced rest lows

/-- The letters are no low lines themselves. -/
def AreLetters (letters : List Letter) : Prop := ∀ letter ∈ letters, letter.char ≠ '_'

theorem exists_spaced (chars : List Char) : ∃ letters lows, chars = spaced letters lows ∧ AreLetters letters := by
  induction chars with
  | nil => exact ⟨[], 0, rfl, List.forall_mem_nil _⟩
  | cons c rest ih =>
    obtain ⟨letters, lows, rfl, hletters⟩ := ih
    by_cases hc : c = '_'
    · subst hc
      cases letters with
      | nil => exact ⟨[], lows + 1, rfl, hletters⟩
      | cons letter others =>
        refine ⟨⟨letter.lows + 1, letter.char⟩ :: others, lows, rfl, ?_⟩
        exact List.forall_mem_cons.mpr (List.forall_mem_cons.mp hletters)
    · exact ⟨⟨0, c⟩ :: letters, lows, rfl, List.forall_mem_cons.mpr ⟨hc, hletters⟩⟩

theorem spaced_append (first second : List Letter) (before after : Nat) (c : Char) :
    spaced first before ++ c :: spaced second after = spaced (first ++ ⟨before, c⟩ :: second) after := by
  induction first with
  | nil => rfl
  | cons letter rest ih =>
    rw [spaced, List.cons_append, spaced, ← ih, List.append_assoc, List.cons_append]

/-- The letters in lower case. -/
def lowerLetters (letters : List Letter) : List Letter := letters.map fun letter => ⟨letter.lows, letter.char.toLower⟩

theorem map_toLower_spaced (letters : List Letter) (lows : Nat) :
    (spaced letters lows).map Char.toLower = spaced (lowerLetters letters) lows := by
  have hlow : '_'.toLower = '_' := by decide
  induction letters with
  | nil => rw [spaced, List.map_replicate, hlow, lowerLetters, List.map_nil, spaced]
  | cons letter rest ih =>
    have hcons : lowerLetters (letter :: rest) = ⟨letter.lows, letter.char.toLower⟩ :: lowerLetters rest := rfl
    rw [spaced, List.map_append, List.map_replicate, hlow, List.map_cons, ih, hcons, spaced]

section

variable {letters : List Letter} {lows : Nat}

theorem mem_spaced {c : Char} (h : c ∈ spaced letters lows) : c = '_' ∨ ∃ letter ∈ letters, letter.char = c := by
  induction letters with
  | nil => exact Or.inl (List.eq_of_mem_replicate h)
  | cons letter rest ih =>
    rw [spaced, List.mem_append, List.mem_cons] at h
    rcases h with h | rfl | h
    · exact Or.inl (List.eq_of_mem_replicate h)
    · exact Or.inr ⟨letter, List.mem_cons_self .., rfl⟩
    · exact (ih h).imp_right fun ⟨other, hother, hc⟩ => ⟨other, List.mem_cons_of_mem _ hother, hc⟩

theorem char_mem_spaced {letter : Letter} (h : letter ∈ letters) : letter.char ∈ spaced letters lows := by
  obtain ⟨before, after, rfl⟩ := List.append_of_mem h
  rw [← spaced_append before after letter.lows lows letter.char]
  exact List.mem_append_right _ (List.mem_cons_self ..)

theorem bare_spaced (h : AreLetters letters) (lows : Nat) : bare (spaced letters lows) = letters.map Letter.char := by
  have hlows : ∀ count, bare (List.replicate count '_') = [] := fun count => by simp [bare]
  induction letters with
  | nil => exact hlows lows
  | cons letter rest ih =>
    obtain ⟨hletter, hrest⟩ := List.forall_mem_cons.mp h
    have hcons : bare (letter.char :: spaced rest lows) = letter.char :: bare (spaced rest lows) :=
      List.filter_cons_of_pos (decide_eq_true hletter)
    rw [spaced, bare, List.filter_append, ← bare, ← bare, hlows, List.nil_append, hcons, ih hrest, List.map_cons]

/-- The low lines at the front are those ahead of the first letter. -/
theorem lowsAhead_append {c : Char} (hc : c ≠ '_') (count : Nat) (rest : List Char) :
    lowsAhead (List.replicate count '_' ++ c :: rest) = count := by
  have hlows : ∀ low ∈ List.replicate count '_', decide (low = '_') = true :=
    fun low hlow => decide_eq_true (List.eq_of_mem_replicate hlow)
  rw [lowsAhead, List.takeWhile_append_of_pos hlows, List.takeWhile_cons_of_neg (by simpa using hc)]
  simp

theorem lowsAhead_reverse_spaced (h : AreLetters letters) (lows : Nat) :
    lowsAhead (spaced letters lows).reverse = lows := by
  cases hlast : letters.reverse with
  | nil =>
    have hnone : letters = [] := by simpa using hlast
    simp [hnone, spaced, lowsAhead]
  | cons letter others =>
    have hletters : letters = others.reverse ++ [letter] := by simpa using congrArg List.reverse hlast
    have hletter : letter.char ≠ '_' := h letter (by simp [hletters])
    have hspaced : spaced letters lows = spaced others.reverse letter.lows ++ letter.char :: spaced [] lows := by
      rw [spaced_append, hletters]
    rw [hspaced, spaced, List.reverse_append, List.reverse_cons, List.reverse_replicate, List.append_assoc]
    exact lowsAhead_append hletter lows _

theorem double_infix_append {c : Char} (hc : c ≠ '_') (count : Nat) (rest : List Char) :
    ['_', '_'] <:+: List.replicate count '_' ++ c :: rest ↔ 2 ≤ count ∨ ['_', '_'] <:+: rest := by
  induction count with
  | zero =>
    have hprefix : ¬['_', '_'] <+: c :: rest := fun h => hc (List.cons_prefix_cons.mp h).1.symm
    simp [List.infix_cons_iff, hprefix]
  | succ count ih =>
    rw [List.replicate_succ, List.cons_append, List.infix_cons_iff, ih, List.cons_prefix_cons]
    cases count with
    | zero => simp [Ne.symm hc]
    | succ count => simp [List.replicate_succ]

/-- Two low lines stand together just if there are as many ahead of a letter or at the end. -/
theorem double_infix_spaced (h : AreLetters letters) (lows : Nat) :
    ['_', '_'] <:+: spaced letters lows ↔ (∃ letter ∈ letters, 2 ≤ letter.lows) ∨ 2 ≤ lows := by
  induction letters with
  | nil =>
    have hlows : ['_', '_'] <:+: List.replicate lows '_' ↔ 2 ≤ lows := by
      have hpair : ['_', '_'] = List.replicate 2 '_' := rfl
      rw [hpair, List.infix_replicate_iff]
      simp
    simp [spaced, hlows]
  | cons letter rest ih =>
    obtain ⟨hletter, hrest⟩ := List.forall_mem_cons.mp h
    rw [spaced, double_infix_append hletter, ih hrest]
    simp [or_assoc]

end

/-! ### Gaps -/

/-- Two names have the same letters, and the low lines ahead of each letter are related by a rule that may look at the
letter and at the one before. -/
inductive Respaced (Gap : Option Char → Char → Nat → Nat → Prop) : Option Char → List Letter → List Letter → Prop
  | nil {before : Option Char} : Respaced Gap before [] []
  | cons {before : Option Char} {c : Char} {old new : Nat} {letters others : List Letter} (gap : Gap before c old new)
      (rest : Respaced Gap (some c) letters others) : Respaced Gap before (⟨old, c⟩ :: letters) (⟨new, c⟩ :: others)

namespace Respaced

variable {Gap : Option Char → Char → Nat → Nat → Prop} {before : Option Char} {letters others : List Letter}

theorem map_char (h : Respaced Gap before letters others) : others.map Letter.char = letters.map Letter.char := by
  induction h with
  | nil => rfl
  | cons _ _ ih => rw [List.map_cons, List.map_cons, ih]

theorem forall_char (p : Char → Prop) (h : Respaced Gap before letters others)
    (hletters : ∀ letter ∈ letters, p letter.char) : ∀ letter ∈ others, p letter.char := by
  intro letter hmem
  have hchar : letter.char ∈ letters.map Letter.char := h.map_char ▸ List.mem_map_of_mem hmem
  obtain ⟨other, hother, heq⟩ := List.mem_map.mp hchar
  exact heq ▸ hletters other hother

theorem areLetters (h : Respaced Gap before letters others) (hletters : AreLetters letters) : AreLetters others :=
  h.forall_char (· ≠ '_') hletters

/-- One rule after the other. -/
theorem trans {First Second Both : Option Char → Char → Nat → Nat → Prop} {last : List Letter}
    (h : Respaced First before letters others) (h' : Respaced Second before others last)
    (hboth : ∀ {before c old between new}, First before c old between → Second before c between new →
      Both before c old new) : Respaced Both before letters last := by
  induction h generalizing last with
  | nil =>
    cases h'
    exact .nil
  | cons gap _ ih =>
    cases h' with
    | cons gap' rest' => exact .cons (hboth gap gap') (ih rest')

theorem exists_of_append {first second : List Letter} (h : Respaced Gap before (first ++ second) others) :
    ∃ front between back, others = front ++ back ∧ Respaced Gap before first front ∧
      Respaced Gap between second back := by
  induction first generalizing before others with
  | nil => exact ⟨[], before, others, rfl, .nil, h⟩
  | cons letter rest ih =>
    cases h with
    | cons gap hrest =>
      obtain ⟨front, between, back, rfl, hfront, hback⟩ := ih hrest
      exact ⟨_ :: front, between, back, rfl, .cons gap hfront, hback⟩

end Respaced

/-! ### The steps of snake-casing -/

/-- Splitting words adds a low line ahead of a capital, at the front of a name only if there is one already. -/
def wordGap (before : Option Char) (c : Char) (old new : Nat) : Prop :=
  new = old ∨ new = old + 1 ∧ isAsciiUpper c = true ∧ (before = none → 0 < old)

/-- Joining low lines takes one away ahead of a capital, if there are two. -/
def joinedGap (_ : Option Char) (c : Char) (old new : Nat) : Prop :=
  new = if isAsciiUpper c = true ∧ 2 ≤ old then old - 1 else old

/-- Splitting humps puts a low line between a small character and a capital that follows it directly. -/
def humpGap (before : Option Char) (c : Char) (old new : Nat) : Prop :=
  new = if old = 0 ∧ before.any isSmall = true ∧ isAsciiUpper c = true then 1 else old

section

variable {letters : List Letter} {lows : Nat}

theorem not_startsWord_low (rest : List Char) : startsWord ('_' :: rest) = false := by
  cases rest <;> rfl

/-- One character is read: it is kept, and a low line stands behind it only if a word begins there. -/
theorem splitWords_cons (place : WordPlace) (c : Char) (rest : List Char) :
    (∃ next, splitWords place (c :: rest) = c :: splitWords next rest) ∨
      startsWord rest = true ∧ splitWords place (c :: rest) = c :: '_' :: splitWords .capital rest := by
  rw [splitWords.eq_def]
  cases place with
  | capital => exact Or.inl ⟨.letters, rfl⟩
  | between | letters =>
    dsimp only
    split
    · exact Or.inl ⟨.letters, rfl⟩
    · split
      · rename_i hword
        exact Or.inr ⟨hword.2, rfl⟩
      · exact Or.inl ⟨.between, rfl⟩

theorem splitWords_lows (place : WordPlace) (c : Char) (count : Nat) :
    splitWords place (c :: List.replicate count '_') = c :: List.replicate count '_' := by
  induction count generalizing place c with
  | zero =>
    rcases splitWords_cons place c [] with ⟨next, hnext⟩ | ⟨hword, -⟩
    · rw [List.replicate_zero, hnext, splitWords]
    · cases hword
  | succ count ih =>
    rw [List.replicate_succ]
    rcases splitWords_cons place c ('_' :: List.replicate count '_') with ⟨next, hnext⟩ | ⟨hword, -⟩
    · rw [hnext, ih]
    · rw [not_startsWord_low] at hword
      cases hword

/-- The low lines ahead of a letter are kept, and one more may come behind them if the letter is a capital. -/
theorem splitWords_ahead (place : WordPlace) (c d : Char) (count : Nat) (rest : List Char) : ∃ new next,
    splitWords place (c :: (List.replicate count '_' ++ d :: rest)) =
      c :: (List.replicate new '_' ++ splitWords next (d :: rest)) ∧
      (new = count ∨ new = count + 1 ∧ isAsciiUpper d = true) := by
  induction count generalizing place c with
  | zero =>
    rcases splitWords_cons place c (d :: rest) with ⟨next, hnext⟩ | ⟨hword, hnext⟩
    · exact ⟨0, next, hnext, Or.inl rfl⟩
    · refine ⟨1, .capital, hnext, Or.inr ⟨rfl, ?_⟩⟩
      cases rest with
      | nil => cases hword
      | cons lower others => exact (Bool.and_eq_true_iff.mp hword).1
  | succ count ih =>
    rw [List.replicate_succ, List.cons_append]
    rcases splitWords_cons place c ('_' :: (List.replicate count '_' ++ d :: rest)) with ⟨next, hnext⟩ | ⟨hword, -⟩
    · obtain ⟨new, next, hrest, hnew⟩ := ih next '_'
      rw [hnext, hrest]
      exact ⟨new + 1, next, rfl, hnew.imp (congrArg (· + 1)) fun h => ⟨congrArg (· + 1) h.1, h.2⟩⟩
    · rw [not_startsWord_low] at hword
      cases hword

theorem respaced_splitWords_cons (letters : List Letter) (lows : Nat) (place : WordPlace) (c before : Char) :
    ∃ others, splitWords place (c :: spaced letters lows) = c :: spaced others lows ∧
      Respaced wordGap (some before) letters others := by
  induction letters generalizing place c before with
  | nil => exact ⟨[], splitWords_lows place c lows, .nil⟩
  | cons letter rest ih =>
    obtain ⟨new, next, hahead, hnew⟩ := splitWords_ahead place c letter.char letter.lows (spaced rest lows)
    obtain ⟨others, hothers, hrest⟩ := ih next letter.char letter.char
    refine ⟨⟨new, letter.char⟩ :: others, ?_, .cons ?_ hrest⟩
    · rw [spaced, hahead, hothers, spaced]
    · exact hnew.imp_right fun hcapital => ⟨hcapital.1, hcapital.2, nofun⟩

theorem respaced_splitWords (letters : List Letter) (lows : Nat) (place : WordPlace) :
    ∃ others, splitWords place (spaced letters lows) = spaced others lows ∧ Respaced wordGap none letters others := by
  cases letters with
  | nil =>
    refine ⟨[], ?_, .nil⟩
    cases lows with
    | zero => rw [spaced, List.replicate_zero, splitWords]
    | succ count => exact splitWords_lows place '_' count
  | cons letter rest =>
    obtain ⟨count, c⟩ := letter
    cases count with
    | zero =>
      obtain ⟨others, hothers, hrest⟩ := respaced_splitWords_cons rest lows place c c
      exact ⟨⟨0, c⟩ :: others, hothers, .cons (Or.inl rfl) hrest⟩
    | succ count =>
      obtain ⟨new, next, hahead, hnew⟩ := splitWords_ahead place '_' c count (spaced rest lows)
      obtain ⟨others, hothers, hrest⟩ := respaced_splitWords_cons rest lows next c c
      refine ⟨⟨new + 1, c⟩ :: others, ?_, .cons ?_ hrest⟩
      · rw [hothers] at hahead
        exact hahead
      · rcases hnew with hsame | ⟨hmore, hcapital⟩
        · exact Or.inl (by omega)
        · exact Or.inr ⟨by omega, hcapital, fun _ => by omega⟩

/-- The low lines ahead of a letter are joined on their own. -/
theorem joinLows_append {c : Char} (hc : c ≠ '_') (count : Nat) (rest : List Char) :
    joinLows (List.replicate count '_' ++ c :: rest) =
      List.replicate (if isAsciiUpper c = true ∧ 2 ≤ count then count - 1 else count) '_' ++ c :: joinLows rest := by
  have hplain : joinLows (c :: rest) = c :: joinLows rest := by rw [joinLows, if_neg (by simp [hc])]
  induction count with
  | zero => simp [hplain]
  | succ count ih =>
    rw [List.replicate_succ, List.cons_append, joinLows]
    match count with
    | 0 =>
      have hcapital : startsLowCapital (c :: rest) = false := by cases rest <;> simp [startsLowCapital, hc]
      simp [hcapital, hplain]
    | 1 =>
      have hcapital : startsLowCapital ('_' :: c :: rest) = isAsciiUpper c := by simp [startsLowCapital]
      by_cases hupper : isAsciiUpper c = true
      · simpa [hcapital, hupper] using ih
      · simpa [hcapital, hupper] using ih
    | count + 2 =>
      have hlow : isAsciiUpper '_' = false := by decide
      have hcapital : startsLowCapital (List.replicate (count + 2) '_' ++ c :: rest) = false := by
        simp [List.replicate_succ, startsLowCapital, hlow]
      rw [hcapital, if_neg (by simp), ih]
      by_cases hupper : isAsciiUpper c = true
      · simp [hupper, List.replicate_succ]
      · simp [hupper, List.replicate_succ]

theorem respaced_joinLows (h : AreLetters letters) (lows : Nat) (before : Option Char) :
    ∃ others, joinLows (spaced letters lows) = spaced others lows ∧ Respaced joinedGap before letters others := by
  induction letters generalizing before with
  | nil =>
    refine ⟨[], ?_, .nil⟩
    have hlow : isAsciiUpper '_' = false := by decide
    have hcapital : ∀ count, startsLowCapital (List.replicate count '_') = false := by
      intro count
      match count with
      | 0 => rfl
      | 1 => rfl
      | count + 2 => simp [List.replicate_succ, startsLowCapital, hlow]
    rw [spaced]
    induction lows with
    | zero => rfl
    | succ count ih => rw [List.replicate_succ, joinLows, hcapital, if_neg (by simp), ih]
  | cons letter rest ih =>
    obtain ⟨hletter, hrest⟩ := List.forall_mem_cons.mp h
    obtain ⟨others, hothers, hspaced⟩ := ih hrest (some letter.char)
    refine ⟨⟨_, letter.char⟩ :: others, ?_, .cons rfl hspaced⟩
    rw [spaced, joinLows_append hletter, hothers, spaced]

theorem splitHumps_append (count : Nat) (rest : List Char) :
    splitHumps (List.replicate count '_' ++ rest) = List.replicate count '_' ++ splitHumps rest := by
  have hlow : (isAsciiLower '_' || '_'.isDigit) = false := by decide
  induction count with
  | zero => rfl
  | succ count ih =>
    rw [List.replicate_succ, List.cons_append, splitHumps, hlow, if_neg (by simp), ih, List.cons_append]

theorem respaced_splitHumps_cons (letters : List Letter) (lows : Nat) (c : Char) :
    ∃ others, splitHumps (c :: spaced letters lows) = c :: spaced others lows ∧
      Respaced humpGap (some c) letters others := by
  induction letters generalizing c with
  | nil =>
    refine ⟨[], ?_, .nil⟩
    have hlast : splitHumps (List.replicate lows '_') = List.replicate lows '_' := by
      have happend := splitHumps_append lows []
      rwa [splitHumps, List.append_nil] at happend
    have hcapital : (List.replicate lows '_').head?.any isAsciiUpper = false := by cases lows <;> rfl
    rw [spaced, splitHumps, hcapital, if_neg (by simp), hlast]
  | cons letter rest ih =>
    obtain ⟨count, d⟩ := letter
    obtain ⟨others, hothers, hrest⟩ := ih d
    refine ⟨⟨_, d⟩ :: others, ?_, .cons rfl hrest⟩
    have hhead : (spaced (⟨count, d⟩ :: rest) lows).head?.any isAsciiUpper = true ↔
        count = 0 ∧ isAsciiUpper d = true := by
      cases count with
      | zero => simp [spaced]
      | succ count =>
        have hlow : isAsciiUpper '_' = false := by decide
        simp [spaced, List.replicate_succ, hlow]
    rw [splitHumps, if_congr (and_congr_right fun _ => hhead) rfl rfl, ← isSmall]
    by_cases hhump : isSmall c = true ∧ count = 0 ∧ isAsciiUpper d = true
    · obtain ⟨hsmall, rfl, hupper⟩ := hhump
      rw [if_pos ⟨hsmall, rfl, hupper⟩, spaced, List.replicate_zero, List.nil_append, hothers]
      simp [spaced, hsmall, hupper]
    · rw [if_neg hhump, spaced, splitHumps_append, hothers, spaced, if_neg]
      exact fun h => hhump ⟨h.2.1, h.1, h.2.2⟩

theorem respaced_splitHumps (letters : List Letter) (lows : Nat) :
    ∃ others, splitHumps (spaced letters lows) = spaced others lows ∧ Respaced humpGap none letters others := by
  cases letters with
  | nil =>
    have happend := splitHumps_append lows []
    rw [splitHumps, List.append_nil] at happend
    exact ⟨[], happend, .nil⟩
  | cons letter rest =>
    obtain ⟨others, hothers, hrest⟩ := respaced_splitHumps_cons rest lows letter.char
    refine ⟨⟨letter.lows, letter.char⟩ :: others, ?_, .cons (by simp [humpGap]) hrest⟩
    rw [spaced, splitHumps_append, hothers, spaced]

/-! ### Snake-casing -/

/-- What the steps do to the low lines ahead of a letter. -/
structure SnakeGap (before : Option Char) (c : Char) (old new : Nat) : Prop where
  single : old ≤ 1 → new ≤ 1
  front : before = none → new ≤ old
  hump : before.any isSmall = true → isAsciiUpper c = true → old = 0 → new = 1

theorem snakeGap_of_steps {before : Option Char} {c : Char} {old split joined new : Nat}
    (hword : wordGap before c old split) (hjoined : joinedGap before c split joined)
    (hhump : humpGap before c joined new) : SnakeGap before c old new := by
  rw [joinedGap] at hjoined
  rw [humpGap] at hhump
  rcases hword with rfl | ⟨rfl, hupper, hfront⟩
  · constructor
    · intro hold
      split_ifs at hjoined hhump <;> omega
    · rintro rfl
      rw [if_neg (by simp)] at hhump
      split_ifs at hjoined <;> omega
    · rintro hsmall hupper rfl
      rw [if_neg (by omega)] at hjoined
      rw [hhump, if_pos ⟨hjoined, hsmall, hupper⟩]
  · -- the low line that came with the word is the one that is taken away, or the first
    have hless : joined = if 1 ≤ old then old else 1 := by
      split_ifs with hold
      · rw [hjoined, if_pos ⟨hupper, by omega⟩, Nat.add_sub_cancel]
      · rw [hjoined, if_neg (by omega)]
        omega
    rw [if_neg (by split_ifs at hless <;> omega)] at hhump
    constructor
    · intro hold
      split_ifs at hless <;> omega
    · intro hnone
      have hpos := hfront hnone
      rw [if_pos (by omega)] at hless
      omega
    · rintro - - rfl
      rw [hhump, hless, if_neg (by decide)]

/-- Of the characters of ASCII, the table of lower-case forms has the capitals. -/
theorem mapWith_lowerRuns_of_ascii {code : Nat} (h : code < 128) :
    CaseRun.mapWith lowerRuns code = if 65 ≤ code ∧ code ≤ 90 then code + 32 else code := by
  have hothers : ∀ run ∈ lowerRuns.tail, 128 ≤ run.first := List.all_iff_forall_prop.mp (by decide)
  have hnone : lowerRuns.tail.find? (·.covers code) = none := by
    refine List.find?_eq_none.mpr fun run hrun hcovers => ?_
    have hfirst := hothers run hrun
    have hcode := CaseRun.le_of_covers hcovers
    omega
  have htable : lowerRuns = ⟨65, 90, 1, 32⟩ :: lowerRuns.tail := rfl
  have hcovers : (⟨65, 90, 1, 32⟩ : CaseRun).covers code = decide (65 ≤ code ∧ code ≤ 90) := by
    simp [CaseRun.covers, Nat.mod_one]
  rw [CaseRun.mapWith, htable, List.find?_cons, hnone, hcovers]
  by_cases hcapital : 65 ≤ code ∧ code ≤ 90
  · rw [if_pos hcapital, decide_eq_true hcapital]
    exact Int.toNat_natCast (code + 32)
  · rw [if_neg hcapital, decide_eq_false hcapital]

theorem lowerChars_of_ascii {c : Char} (h : c.toNat < 128) : lowerChars c = [c.toLower] := by
  have hforms : ∀ code < 128, Char.ofNat (if 65 ≤ code ∧ code ≤ 90 then code + 32 else code) =
      (Char.ofNat code).toLower := by decide
  have hplain : c ≠ 'İ' := by
    rintro rfl
    exact absurd h (by decide)
  have hform := hforms c.toNat h
  rw [Char.ofNat_toNat] at hform
  rw [lowerChars, if_neg hplain, mapWith_lowerRuns_of_ascii h, hform]

theorem lowerText_ascii {chars : List Char} (h : ∀ c ∈ chars, c.toNat < 128) :
    lowerText chars = chars.map Char.toLower := by
  have hfrom : ∀ before, lowerFrom before chars = chars.map Char.toLower := by
    induction chars with
    | nil => exact fun _ => rfl
    | cons c rest ih =>
      intro before
      obtain ⟨hc, hrest⟩ := List.forall_mem_cons.mp h
      have hsigma : c ≠ 'Σ' := by
        rintro rfl
        exact absurd hc (by decide)
      rw [lowerFrom, if_neg hsigma, lowerChars_of_ascii hc, ih hrest (c :: before), List.map_cons,
        List.singleton_append]
  exact hfrom []

theorem isCased_of_ascii {chars : List Char} (hupper : ∃ c ∈ chars, isAsciiUpper c = true)
    (hlower : ∃ c ∈ chars, isAsciiLower c = true) :
    (chars.any CodeSet.uppercase.contains && chars.any CodeSet.lowercase.contains) = true := by
  have hcapitals : ∀ code < 91, 65 ≤ code → CodeSet.uppercase.containsCode code = true := by decide
  have hsmalls : ∀ code < 123, 97 ≤ code → CodeSet.lowercase.containsCode code = true := by decide
  rw [Bool.and_eq_true, List.any_eq_true, List.any_eq_true]
  constructor
  · obtain ⟨c, hc, hcapital⟩ := hupper
    rw [isAsciiUpper, Bool.and_eq_true, decide_eq_true_eq, decide_eq_true_eq] at hcapital
    have hfirst : 65 ≤ c.toNat := hcapital.1
    have hlast : c.toNat ≤ 90 := hcapital.2
    exact ⟨c, hc, hcapitals c.toNat (by omega) hfirst⟩
  · obtain ⟨c, hc, hsmall⟩ := hlower
    rw [isAsciiLower, Bool.and_eq_true, decide_eq_true_eq, decide_eq_true_eq] at hsmall
    have hfirst : 97 ≤ c.toNat := hsmall.1
    have hlast : c.toNat ≤ 122 := hsmall.2
    exact ⟨c, hc, hsmalls c.toNat (by omega) hfirst⟩

/-- Snake-casing writes the letters in lower case, with new low lines ahead of them. -/
theorem respaced_snakeChars (hletters : AreLetters letters) (hascii : ∀ c ∈ spaced letters lows, c.toNat < 128)
    (hupper : ∃ c ∈ spaced letters lows, isAsciiUpper c = true)
    (hlower : ∃ c ∈ spaced letters lows, isAsciiLower c = true) :
    ∃ others, snakeChars (spaced letters lows) = spaced (lowerLetters others) lows ∧
      Respaced SnakeGap none letters others := by
  obtain ⟨split, hsplit, hwords⟩ := respaced_splitWords letters lows .between
  obtain ⟨joined, hjoined, hlows⟩ := respaced_joinLows (hwords.areLetters hletters) lows none
  obtain ⟨others, hothers, hhumps⟩ := respaced_splitHumps joined lows
  have hrest : Respaced
      (fun before c old new => ∃ between, joinedGap before c old between ∧ humpGap before c between new)
      none split others := hlows.trans hhumps fun hjoined hhump => ⟨_, hjoined, hhump⟩
  have hrespaced : Respaced SnakeGap none letters others :=
    hwords.trans hrest fun hword ⟨_, hjoined, hhump⟩ => snakeGap_of_steps hword hjoined hhump
  have hsmall : ∀ c ∈ spaced others lows, c.toNat < 128 := by
    intro c hc
    rcases mem_spaced hc with rfl | ⟨letter, hletter, rfl⟩
    · decide
    · have hchars : ∀ letter ∈ letters, letter.char.toNat < 128 :=
        fun letter hletter => hascii _ (char_mem_spaced hletter)
      exact hrespaced.forall_char (·.toNat < 128) hchars letter hletter
  refine ⟨others, ?_, hrespaced⟩
  rw [snakeChars, if_pos (isCased_of_ascii hupper hlower), hsplit, hjoined, hothers, lowerText_ascii hsmall,
    map_toLower_spaced]

end

/-- A fact about all ASCII characters holds of each. -/
theorem forall_ascii {p : Char → Prop} (h : ∀ code < 128, p (Char.ofNat code)) {c : Char} (hc : c.toNat < 128) :
    p c := by
  have hcode := h c.toNat hc
  rwa [Char.ofNat_toNat] at hcode

theorem areLetters_lowerLetters {letters : List Letter} (h : AreLetters letters)
    (hascii : ∀ letter ∈ letters, letter.char.toNat < 128) : AreLetters (lowerLetters letters) := by
  intro lower hlower
  obtain ⟨letter, hletter, rfl⟩ := List.mem_map.mp hlower
  exact forall_ascii (p := fun c => c ≠ '_' → c.toLower ≠ '_') (by decide) (hascii letter hletter)
    (h letter hletter)

namespace Respaced

variable {before : Option Char} {letters others : List Letter}

/-- Names with the same letters are the same in lower case but for the low lines. -/
theorem bare_eq (h : Respaced SnakeGap before letters others) (hletters : AreLetters letters)
    (hascii : ∀ letter ∈ letters, letter.char.toNat < 128) (old new : Nat) :
    bare (spaced (lowerLetters others) new) = bare ((spaced letters old).map Char.toLower) := by
  have hlower : ∀ letters : List Letter,
      (lowerLetters letters).map Letter.char = (letters.map Letter.char).map Char.toLower := fun letters => by
    simp [lowerLetters]
  have hothers := areLetters_lowerLetters (h.areLetters hletters) (h.forall_char (·.toNat < 128) hascii)
  rw [map_toLower_spaced, bare_spaced hothers, bare_spaced (areLetters_lowerLetters hletters hascii), hlower, hlower,
    h.map_char]

theorem exists_double (h : Respaced SnakeGap before letters others) (hdouble : ∃ letter ∈ others, 2 ≤ letter.lows) :
    ∃ letter ∈ letters, 2 ≤ letter.lows := by
  induction h with
  | nil => exact hdouble
  | @cons before c old new letters others gap _ ih =>
    have hold : ¬2 ≤ old → new ≤ 1 := fun h => gap.single (by omega)
    simp only [List.mem_cons, exists_eq_or_imp] at hdouble ⊢
    by_cases h : 2 ≤ old
    · exact Or.inl h
    · have hnew := hold h
      exact Or.inr (ih (hdouble.resolve_left (by omega)))

/-- A hump is split by one low line. -/
theorem exists_hump {front back : List Letter} {count : Nat} {small capital : Char}
    (h : Respaced SnakeGap before (front ++ ⟨count, small⟩ :: ⟨0, capital⟩ :: back) others)
    (hsmall : isSmall small = true) (hupper : isAsciiUpper capital = true) : ∃ first second new between,
      others = first ++ ⟨new, small⟩ :: ⟨1, capital⟩ :: second ∧
        Respaced SnakeGap before front first ∧ Respaced SnakeGap between back second := by
  obtain ⟨first, between, rest, rfl, hfirst, hrest⟩ := h.exists_of_append
  cases hrest with
  | @cons _ _ _ new _ _ _ hrest =>
    cases hrest with
    | @cons _ _ _ one _ second gap hsecond =>
      have hone : one = 1 := gap.hump hsmall hupper rfl
      exact ⟨first, second, new, _, by rw [hone], hfirst, hsecond⟩

end Respaced

section

variable {name : String} (hascii : ∀ c ∈ name.toList, c.toNat < 128)
  (hupper : ∃ c ∈ name.toList, isAsciiUpper c = true) (hlower : ∃ c ∈ name.toList, isAsciiLower c = true)

include hascii hupper hlower

/-- Every way to write a name as letters and low lines gives its snake-cased form in the same way. -/
theorem respaced_snakeCase {letters : List Letter} {lows : Nat} (hname : name.toList = spaced letters lows)
    (hletters : AreLetters letters) : ∃ others, (snakeCase name).toList = spaced (lowerLetters others) lows ∧
      Respaced SnakeGap none letters others := by
  rw [snakeCase, String.toList_ofList, hname]
  rw [hname] at hascii hupper hlower
  exact respaced_snakeChars hletters hascii hupper hlower

theorem exists_hump_snakeCase {before after : List Char} {small capital : Char}
    (hsplit : name.toList = before ++ small :: capital :: after) (hsmall : isSmall small = true)
    (hcapital : isAsciiUpper capital = true) : ∃ front back,
      (snakeCase name).toList = front ++ small :: '_' :: capital.toLower :: back ∧
        bare front = bare (before.map Char.toLower) ∧ bare back = bare (after.map Char.toLower) := by
  have hsmalls : small.toNat < 128 → isSmall small = true → small.toLower = small :=
    forall_ascii (p := fun c => isSmall c = true → c.toLower = c) (by decide)
  obtain ⟨front, count, rfl, hfront⟩ := exists_spaced before
  obtain ⟨back, lows, rfl, hback⟩ := exists_spaced after
  have hname : name.toList = spaced (front ++ ⟨count, small⟩ :: ⟨0, capital⟩ :: back) lows := by
    rw [hsplit, ← spaced_append]
    rfl
  have hletters : AreLetters (front ++ ⟨count, small⟩ :: ⟨0, capital⟩ :: back) := by
    have hsmallLow : small ≠ '_' := by
      rintro rfl
      cases hsmall
    have hcapitalLow : capital ≠ '_' := by
      rintro rfl
      cases hcapital
    exact List.forall_mem_append.mpr ⟨hfront, List.forall_mem_cons.mpr ⟨hsmallLow,
      List.forall_mem_cons.mpr ⟨hcapitalLow, hback⟩⟩⟩
  have hchars : ∀ letter ∈ front ++ ⟨count, small⟩ :: ⟨0, capital⟩ :: back, letter.char.toNat < 128 :=
    fun letter hletter => hascii _ (hname ▸ char_mem_spaced hletter)
  obtain ⟨others, hsnake, hrespaced⟩ := respaced_snakeCase hascii hupper hlower hname hletters
  obtain ⟨first, second, new, between, rfl, hfirst, hsecond⟩ := hrespaced.exists_hump hsmall hcapital
  obtain ⟨hcharsFront, hcharsBack⟩ := List.forall_mem_append.mp hchars
  obtain ⟨hcharSmall, hcharsBack⟩ := List.forall_mem_cons.mp hcharsBack
  refine ⟨spaced (lowerLetters first) new, spaced (lowerLetters second) lows, ?_, hfirst.bare_eq hfront hcharsFront _ _,
    hsecond.bare_eq hback (List.forall_mem_cons.mp hcharsBack).2 _ _⟩
  rw [hsnake, lowerLetters, List.map_append, List.map_cons, ← spaced_append, hsmalls hcharSmall hsmall]
  rfl

/-- Snake-casing a name of ASCII characters that has both cases keeps all but case and low lines, and the low lines
of the form are those between words. -/
theorem snakeForm_snakeCase : SnakeForm name.toList (snakeCase name).toList := by
  obtain ⟨letters, lows, hname, hletters⟩ := exists_spaced name.toList
  obtain ⟨others, hsnake, hrespaced⟩ := respaced_snakeCase hascii hupper hlower hname hletters
  have hchars : ∀ letter ∈ letters, letter.char.toNat < 128 := fun letter hletter =>
    hascii _ (hname ▸ char_mem_spaced hletter)
  have hcharsOthers := hrespaced.forall_char (·.toNat < 128) hchars
  have hothers := areLetters_lowerLetters (hrespaced.areLetters hletters) hcharsOthers
  constructor
  case letters =>
    rw [hsnake, hname]
    exact hrespaced.bare_eq hletters hchars lows lows
  case small =>
    intro c hc
    rw [hsnake] at hc
    rcases mem_spaced hc with rfl | ⟨lower, hlower, rfl⟩
    · decide
    · obtain ⟨letter, hletter, rfl⟩ := List.mem_map.mp hlower
      have hlow : ∀ code < 128, isAsciiUpper (Char.ofNat code).toLower = false := by decide
      exact forall_ascii (p := fun c => isAsciiUpper c.toLower = false) hlow (hcharsOthers letter hletter)
  case front =>
    rw [hsnake, hname]
    cases hrespaced with
    | nil => exact Nat.le_refl _
    | cons gap _ =>
      have hold := (List.forall_mem_cons.mp hletters).1
      have hnew := (List.forall_mem_cons.mp hothers).1
      rw [lowerLetters, List.map_cons, spaced, spaced, lowsAhead_append hold, lowsAhead_append hnew]
      exact gap.front rfl
  case back =>
    rw [hsnake, hname]
    exact Nat.le_of_eq ((lowsAhead_reverse_spaced hothers lows).trans (lowsAhead_reverse_spaced hletters lows).symm)
  case humps => exact exists_hump_snakeCase hascii hupper hlower
  case single =>
    intro hdouble
    rw [hsnake, double_infix_spaced hothers] at hdouble
    rw [hname, double_infix_spaced hletters]
    refine hdouble.imp_left fun ⟨lower, hlower, htwo⟩ => ?_
    obtain ⟨letter, hletter, rfl⟩ := List.mem_map.mp hlower
    exact hrespaced.exists_double ⟨letter, hletter, htwo⟩

end

/-- Words, an abbreviation, a digit, and low lines at both ends and ahead of a capital. -/
theorem snakeForm_readHTTPHeader :
    (∀ c ∈ "__readHTTPHeader__X2Go_".toList, c.toNat < 128) ∧
      (∃ c ∈ "__readHTTPHeader__X2Go_".toList, isAsciiUpper c = true) ∧
      (∃ c ∈ "__readHTTPHeader__X2Go_".toList, isAsciiLower c = true) ∧
      SnakeForm "__readHTTPHeader__X2Go_".toList "__read_http_header_x2_go_".toList := by
  obtain ⟨hchars, hcapital, hsmall, hsnake⟩ :
      "__readHTTPHeader__X2Go_".toList.all (·.toNat < 128) = true ∧
        "__readHTTPHeader__X2Go_".toList.any isAsciiUpper = true ∧
        "__readHTTPHeader__X2Go_".toList.any isAsciiLower = true ∧
        snakeCase "__readHTTPHeader__X2Go_" = "__read_http_header_x2_go_" := by
    decide
  have hascii := List.all_iff_forall_prop.mp hchars
  have hupper := List.any_eq_true.mp hcapital
  have hlower := List.any_eq_true.mp hsmall
  exact ⟨hascii, hupper, hlower, hsnake ▸ snakeForm_snakeCase hascii hupper hlower⟩

end StubGen
