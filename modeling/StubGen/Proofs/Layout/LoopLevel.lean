import StubGen.Proofs.Layout.Lines

/-!
# Jumps in the lines of code

In the host a `break` or `continue` belongs to the innermost loop whose header encloses it by indentation.
`LoopLevel` says that lines have a jump that no header among them encloses.

* `Code.loose` gives the texts that are in no loop suite of the code.
* `exists_loose_of_loopLevel` finds a jump among them if the lines have one at loop level.
-/

namespace StubGen

/-- The text of a line, without the blanks before it. -/
def bareText (line : String) : List Char := line.toList.dropWhile (· = ' ')

/-- The number of blanks before the text of a line. -/
def depthOf (line : String) : Nat := (line.toList.takeWhile (· = ' ')).length

/-- The text ends with the word: it is the word, or a blank, a colon or a semicolon precedes the word. -/
def EndsIn (word text : List Char) : Prop :=
  ∃ before, text = before ++ word ∧ ∀ c ∈ before.getLast?, c ∈ [' ', ':', ';']

/-- The line, if it is no comment, ends with the jump of this name: it is the jump, or has it after a test. -/
def IsJump (word line : String) : Prop := (bareText line).head? ≠ some '#' ∧ EndsIn word.toList (bareText line)

/-- Whether a text is the header of a loop. -/
def isLoopHeader (text : List Char) : Bool :=
  ("for ".toList.isPrefixOf text || "while ".toList.isPrefixOf text) && text.getLast? = some ':'

/-- The header of a loop encloses the lines that follow it: they are blank or deeper. -/
def Encloses (header : String) (inner : List String) : Prop :=
  isLoopHeader (bareText header) = true ∧ ∀ line ∈ inner, line = "" ∨ depthOf header < depthOf line

/-- The lines have a jump of this name that no header of a loop before it encloses. -/
def LoopLevel (word : String) (lines : List String) : Prop :=
  ∃ before line after, lines = before ++ line :: after ∧ IsJump word line ∧
    ∀ start header inner, before = start ++ header :: inner → ¬Encloses header (inner ++ [line])

mutual

/-- The texts of a piece of code that are in no loop suite of it. -/
def Code.loose : Code → List String
  | .line text => [text]
  | .blank _ => []
  | .suite header body => header :: if isLoopHeader header.toList then [] else allLoose body
termination_by structural code => code

/-- The texts of pieces of code that are in no loop suite of them. -/
def Code.allLoose : List Code → List String
  | [] => []
  | code :: rest => code.loose ++ allLoose rest
termination_by structural codes => codes

end

theorem Code.allLoose_append (first second : List Code) :
    Code.allLoose (first ++ second) = Code.allLoose first ++ Code.allLoose second := by
  induction first with
  | nil => rfl
  | cons code first ih => simp [Code.allLoose, ih]

/-! ### Depths -/

theorem toList_indented (depth : Nat) (text : String) :
    (indented depth text).toList = List.replicate (4 * depth) ' ' ++ text.toList := by
  have hblanks : ∀ n, (String.join (List.replicate n indentUnit)).toList = List.replicate (4 * n) ' ' := by
    intro n
    induction n with
    | zero => rfl
    | succ n ih =>
      rw [List.replicate_succ, String.join_cons, String.toList_append, ih, Nat.mul_succ, Nat.add_comm,
        ← List.replicate_append_replicate]
      rfl
  rw [indented, String.toList_append, hblanks]

theorem bareText_indented (depth : Nat) (text : String) : bareText (indented depth text) = bareText text := by
  rw [bareText, toList_indented, List.dropWhile_append_of_pos (by simp)]
  rfl

theorem depthOf_indented (depth : Nat) (text : String) :
    depthOf (indented depth text) = 4 * depth + depthOf text := by
  rw [depthOf, toList_indented, List.takeWhile_append_of_pos (by simp), List.length_append, List.length_replicate]
  rfl

theorem isJump_indented {word : String} (depth : Nat) (text : String) :
    IsJump word (indented depth text) ↔ IsJump word text := by
  rw [IsJump, bareText_indented, IsJump]

mutual

private theorem deep_linesAt (depth : Nat) (code : Code) :
    ∀ line ∈ code.linesAt depth, line = "" ∨ 4 * depth ≤ depthOf line := by
  match code with
  | .line text =>
    intro line hline
    rw [Code.linesAt, List.mem_singleton] at hline
    rw [hline, depthOf_indented]
    exact Or.inr (by omega)
  | .blank count =>
    intro line hline
    exact Or.inl (List.eq_of_mem_replicate hline)
  | .suite header body =>
    intro line hline
    rw [Code.linesAt, List.mem_cons] at hline
    rcases hline with rfl | hline
    · rw [depthOf_indented]
      exact Or.inr (by omega)
    · rcases deep_allLinesAt (depth + 1) body line hline with h | h
      · exact Or.inl h
      · exact Or.inr (by omega)

/-- No line of code at a depth stands less deep. -/
theorem deep_allLinesAt (depth : Nat) (codes : List Code) :
    ∀ line ∈ Code.allLinesAt depth codes, line = "" ∨ 4 * depth ≤ depthOf line := by
  match codes with
  | [] => intro line hline; cases hline
  | code :: rest =>
    intro line hline
    rw [Code.allLinesAt, List.mem_append] at hline
    rcases hline with hline | hline
    · exact deep_linesAt depth code line hline
    · exact deep_allLinesAt depth rest line hline

end

/-! ### Loops around jumps -/

private theorem isLoopHeader_head {header : String} (h : isLoopHeader header.toList = true) :
    bareText header = header.toList ∧ depthOf header = 0 := by
  rw [isLoopHeader, Bool.and_eq_true, Bool.or_eq_true, List.isPrefixOf_iff_prefix, List.isPrefixOf_iff_prefix] at h
  rcases h.1 with ⟨rest, hrest⟩ | ⟨rest, hrest⟩
  · rw [bareText, depthOf, ← hrest]
    exact ⟨rfl, rfl⟩
  · rw [bareText, depthOf, ← hrest]
    exact ⟨rfl, rfl⟩

/-- The header of a loop encloses its suite. -/
theorem encloses_suite {header : String} (h : isLoopHeader header.toList = true) (depth : Nat) (body : List Code)
    {inner : List String} (hinner : ∀ line ∈ inner, line ∈ Code.allLinesAt (depth + 1) body) :
    Encloses (indented depth header) inner := by
  obtain ⟨hbare, hdepth⟩ := isLoopHeader_head h
  refine ⟨by rw [bareText_indented, hbare, h], fun line hline => ?_⟩
  rw [depthOf_indented, hdepth]
  rcases deep_allLinesAt (depth + 1) body line (hinner line hline) with hblank | hdeep
  · exact Or.inl hblank
  · exact Or.inr (by omega)

private theorem not_isJump_empty {word : String} (hword : word ≠ "") : ¬IsJump word "" := by
  rintro ⟨-, before, heq, -⟩
  have : word.toList = [] := (List.append_eq_nil_iff.mp heq.symm).2
  exact hword (String.toList_inj.mp this)

theorem not_loopLevel_nil (word : String) : ¬LoopLevel word [] := by
  rintro ⟨before, line, after, heq, -, -⟩
  simp at heq

/-- A jump at loop level is at loop level in the part that it belongs to. -/
theorem LoopLevel.of_append {word : String} {first second : List String} (h : LoopLevel word (first ++ second)) :
    LoopLevel word first ∨ LoopLevel word second := by
  obtain ⟨before, line, after, heq, hjump, hopen⟩ := h
  rcases List.append_eq_append_iff.mp heq with ⟨middle, rfl, hsecond⟩ | ⟨middle, hfirst, hrest⟩
  · -- the jump is in the second part, where fewer headers stand before it
    refine Or.inr ⟨middle, line, after, hsecond, hjump, fun start header inner hmiddle => ?_⟩
    exact hopen (first ++ start) header inner (by rw [hmiddle, List.append_assoc])
  · cases middle with
    | nil =>
      rw [List.append_nil] at hfirst
      subst hfirst
      exact Or.inr ⟨[], line, after, hrest.symm, hjump, fun start header inner h => by simp at h⟩
    | cons c middle =>
      cases hrest
      exact Or.inl ⟨before, line, middle, hfirst, hjump, hopen⟩

/-- A jump at loop level after a header is no line of the header's suite if the header is that of a loop. -/
theorem LoopLevel.of_cons {word header : String} {lines : List String} (h : LoopLevel word (header :: lines)) :
    IsJump word header ∨ LoopLevel word lines ∧ ¬Encloses header lines := by
  obtain ⟨before, line, after, heq, hjump, hopen⟩ := h
  cases before with
  | nil =>
    cases heq
    exact Or.inl hjump
  | cons first before =>
    cases heq
    refine Or.inr ⟨⟨before, line, after, rfl, hjump, fun start other inner hbefore => ?_⟩, fun hencloses => ?_⟩
    · exact hopen (header :: start) other inner (by rw [hbefore, List.cons_append])
    · -- a header that encloses all lines encloses the jump
      refine hopen [] header before rfl ⟨hencloses.1, fun other hother => hencloses.2 other ?_⟩
      rcases List.mem_append.mp hother with hother | hother
      · exact List.mem_append_left _ hother
      · exact List.mem_append_right _ (List.mem_cons.mpr (Or.inl (List.mem_singleton.mp hother)))

mutual

private theorem exists_loose_linesAt {word : String} (hword : word ≠ "") (depth : Nat) (code : Code)
    (h : LoopLevel word (code.linesAt depth)) : ∃ text ∈ code.loose, IsJump word text := by
  match code with
  | .line text =>
    rcases h.of_cons with hjump | ⟨hnil, -⟩
    · exact ⟨text, List.mem_singleton_self text, (isJump_indented depth text).mp hjump⟩
    · exact absurd hnil (not_loopLevel_nil word)
  | .blank count =>
    obtain ⟨before, line, after, heq, hjump, -⟩ := h
    have hline : line ∈ List.replicate count "" := by
      rw [← Code.linesAt, heq]
      exact List.mem_append_right before (List.mem_cons_self ..)
    rw [List.eq_of_mem_replicate hline] at hjump
    exact absurd hjump (not_isJump_empty hword)
  | .suite header body =>
    rw [Code.linesAt] at h
    rcases h.of_cons with hjump | ⟨hbody, hopen⟩
    · exact ⟨header, List.mem_cons_self .., (isJump_indented depth header).mp hjump⟩
    · have hloop : isLoopHeader header.toList = false :=
        Bool.eq_false_iff.mpr fun hloop => hopen (encloses_suite hloop depth body fun line hline => hline)
      obtain ⟨text, htext, hjump⟩ := exists_loose_of_loopLevel hword (depth + 1) body hbody
      refine ⟨text, ?_, hjump⟩
      rw [Code.loose, hloop]
      exact List.mem_cons_of_mem header htext

/-- If the lines of code have a jump at loop level, it is a text that is in no loop suite of the code. -/
theorem exists_loose_of_loopLevel {word : String} (hword : word ≠ "") (depth : Nat) (codes : List Code)
    (h : LoopLevel word (Code.allLinesAt depth codes)) : ∃ text ∈ Code.allLoose codes, IsJump word text := by
  match codes with
  | [] => exact absurd h (not_loopLevel_nil word)
  | code :: rest =>
    rw [Code.allLinesAt] at h
    rcases h.of_append with hcode | hrest
    · obtain ⟨text, htext, hjump⟩ := exists_loose_linesAt hword depth code hcode
      exact ⟨text, List.mem_append_left _ htext, hjump⟩
    · obtain ⟨text, htext, hjump⟩ := exists_loose_of_loopLevel hword depth rest hrest
      exact ⟨text, List.mem_append_right _ htext, hjump⟩

end

end StubGen
