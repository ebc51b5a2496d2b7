import StubGen.Proofs.Layout.Lines
import StubGen.Proofs.Layout.Printing

/-!
# Lines in sections

Sections begin and end with a line that is not blank, so what is blank around them can be told from what is inside.

* `trimBlankLines_flatMap`: sections with blank lines ahead of each come out of trimming with blank lines in between.
* `intercalate_flatten`: joining the groups of some sections is joining the sections.
* `Code.Closes` is about code whose lines end as those of a section do.
-/

namespace StubGen

/-! ### Joining -/

section

variable {α : Type} {separator : List α} {sections : List (List α)}

private theorem intercalate_ne_nil (separator : List α) (h : ∀ lines ∈ sections, lines ≠ []) (hne : sections ≠ []) :
    separator.intercalate sections ≠ [] := by
  cases sections with
  | nil => exact absurd rfl hne
  | cons first rest =>
    have hfirst := h first (List.mem_cons_self ..)
    cases rest with
    | nil => rwa [List.intercalate_singleton]
    | cons next others => simp [List.intercalate_cons_cons, hfirst]

private theorem intercalate_append {first second : List (List α)} (hfirst : first ≠ []) (hsecond : second ≠ []) :
    separator.intercalate (first ++ second) =
      separator.intercalate first ++ separator ++ separator.intercalate second := by
  induction first with
  | nil => exact absurd rfl hfirst
  | cons lines rest ih =>
    cases rest with
    | nil => rw [List.singleton_append, List.intercalate_cons_of_ne_nil hsecond, List.intercalate_singleton]
    | cons next others =>
      rw [List.cons_append, List.cons_append, List.intercalate_cons_cons, ← List.cons_append, ih (by simp),
        List.intercalate_cons_cons]
      simp only [List.append_assoc]

/-- Joining the groups of some sections is joining the sections; empty groups do not count. -/
theorem intercalate_flatten [DecidableEq α] {groups : List (List (List α))}
    (h : ∀ group ∈ groups, ∀ lines ∈ group, lines ≠ []) : separator.intercalate groups.flatten =
      separator.intercalate ((groups.map separator.intercalate).filter (· ≠ [])) := by
  induction groups with
  | nil => rfl
  | cons group rest ih =>
    obtain ⟨hgroup, hrest⟩ := List.forall_mem_cons.mp h
    rw [List.flatten_cons, List.map_cons]
    by_cases hempty : group = []
    · have hnothing : separator.intercalate group = [] := by rw [hempty, List.intercalate_nil]
      rw [List.filter_cons_of_neg (by simp [hnothing]), hempty, List.nil_append, ih hrest]
    · have hjoined := intercalate_ne_nil separator hgroup hempty
      rw [List.filter_cons_of_pos (by simp [hjoined])]
      have hlines : ∀ lines ∈ rest.flatten, lines ≠ [] := by
        intro lines hmem
        obtain ⟨group, hgroup, hlines⟩ := List.mem_flatten.mp hmem
        exact hrest group hgroup lines hlines
      have hothers : ∀ lines ∈ (rest.map separator.intercalate).filter (· ≠ []), lines ≠ [] :=
        fun lines hmem => of_decide_eq_true (List.mem_filter.mp hmem).2
      by_cases hlast : rest.flatten = []
      · have hnone : (rest.map separator.intercalate).filter (· ≠ []) = [] := by
          by_contra hne
          refine intercalate_ne_nil separator hothers hne ?_
          rw [← ih hrest, hlast, List.intercalate_nil]
        rw [hlast, hnone, List.append_nil, List.intercalate_singleton]
      · have hsome : (rest.map separator.intercalate).filter (· ≠ []) ≠ [] := by
          intro hnone
          refine intercalate_ne_nil separator hlines hlast ?_
          rw [ih hrest, hnone, List.intercalate_nil]
        rw [intercalate_append hempty hlast, List.intercalate_cons_of_ne_nil hsome, ih hrest]

end

/-! ### Trimming -/

/-- The first and the last line are not blank. -/
structure IsSection (lines : List String) : Prop where
  first : ∃ line ∈ lines.head?, isBlankLine line = false
  last : ∃ line ∈ lines.getLast?, isBlankLine line = false

namespace IsSection

variable {first second : List String}

theorem ne_nil (h : IsSection first) : first ≠ [] := by
  obtain ⟨_, hline, -⟩ := h.first
  rintro rfl
  cases hline

theorem append (hfirst : IsSection first) (hsecond : IsSection second) (between : List String) :
    IsSection (first ++ between ++ second) where
  first := by
    rw [List.append_assoc, List.head?_append_of_ne_nil _ hfirst.ne_nil]
    exact hfirst.first
  last := by
    rw [List.getLast?_append_of_ne_nil _ hsecond.ne_nil]
    exact hsecond.last

/-- A section is left as it is, without what is blank ahead of it. -/
theorem trimBlankLines_append {lines blanks : List String} (h : IsSection lines)
    (hblanks : ∀ line ∈ blanks, isBlankLine line = true) : trimBlankLines (blanks ++ lines) = lines := by
  obtain ⟨first, hfirst, hshown⟩ := h.first
  obtain ⟨last, hlast, hshownLast⟩ := h.last
  have hstart : lines.dropWhile isBlankLine = lines := by
    obtain ⟨rest, rfl⟩ := List.head?_eq_some_iff.mp hfirst
    exact List.dropWhile_cons_of_neg (by simp [hshown])
  obtain ⟨others, hlines⟩ := List.getLast?_eq_some_iff.mp hlast
  have hreverse : lines.reverse.dropWhile isBlankLine = lines.reverse := by
    rw [hlines, List.reverse_append]
    exact List.dropWhile_cons_of_neg (by simp [hshownLast])
  rw [trimBlankLines, List.dropWhile_append_of_pos hblanks, hstart, hreverse, List.reverse_reverse]

theorem intercalate {separator : List String} {sections : List (List String)}
    (h : ∀ lines ∈ sections, IsSection lines) (hne : sections ≠ []) :
    IsSection (separator.intercalate sections) := by
  induction sections with
  | nil => exact absurd rfl hne
  | cons lines rest ih =>
    obtain ⟨hlines, hrest⟩ := List.forall_mem_cons.mp h
    cases rest with
    | nil => rwa [List.intercalate_singleton]
    | cons next others =>
      rw [List.intercalate_cons_cons]
      exact hlines.append (ih hrest (by simp)) separator

end IsSection

/-- Sections with blank lines ahead of each come out of trimming with these lines in between. -/
theorem trimBlankLines_flatMap {blanks : List String} {sections : List (List String)}
    (hblanks : ∀ line ∈ blanks, isBlankLine line = true) (h : ∀ lines ∈ sections, IsSection lines) :
    trimBlankLines (sections.flatMap (blanks ++ ·)) = blanks.intercalate sections := by
  have hahead : sections ≠ [] → sections.flatMap (blanks ++ ·) = blanks ++ blanks.intercalate sections := by
    intro hne
    clear h
    induction sections with
    | nil => exact absurd rfl hne
    | cons lines rest ih =>
      cases rest with
      | nil => simp
      | cons next others =>
        rw [List.flatMap_cons, ih (by simp), List.intercalate_cons_cons]
        simp only [List.append_assoc]
  by_cases hne : sections = []
  · rw [hne]
    rfl
  · rw [hahead hne]
    exact (IsSection.intercalate h hne).trimBlankLines_append hblanks

/-- What trimming leaves is a section, if anything. -/
theorem isSection_trimBlankLines {lines : List String} (h : trimBlankLines lines ≠ []) :
    IsSection (trimBlankLines lines) := by
  obtain ⟨blanks, hlines⟩ : trimBlankLines lines <+: lines.dropWhile isBlankLine := List.rdropWhile_prefix _ _
  obtain ⟨first, rest, hfirst⟩ := List.exists_cons_of_ne_nil h
  have hshown : isBlankLine first = false := by
    have hdropped := List.head?_dropWhile_not isBlankLine lines
    rw [← hlines, hfirst] at hdropped
    exact hdropped
  have hlast := List.rdropWhile_last_not isBlankLine (lines.dropWhile isBlankLine) h
  exact ⟨⟨first, by rw [hfirst]; rfl, hshown⟩, _, List.getLast?_eq_some_getLast h, Bool.eq_false_iff.mpr hlast⟩

/-- What has been trimmed is left as it is. -/
theorem trimBlankLines_idem (lines : List String) : trimBlankLines (trimBlankLines lines) = trimBlankLines lines := by
  by_cases h : trimBlankLines lines = []
  · rw [h]
    rfl
  · exact (isSection_trimBlankLines h).trimBlankLines_append (List.forall_mem_nil _)

/-! ### Code that closes -/

theorem isBlankLine_append (first second : String) :
    isBlankLine (first ++ second) = (isBlankLine first && isBlankLine second) := by
  rw [isBlankLine, String.toList_append, List.all_append, isBlankLine, isBlankLine]

theorem isBlankLine_indented (depth : Nat) (text : String) : isBlankLine (indented depth text) = isBlankLine text := by
  have hblanks : (List.replicate (4 * depth) ' ').all CodeSet.whiteSpace.contains = true := by
    rw [List.all_eq_true]
    intro c hc
    rw [List.eq_of_mem_replicate hc]
    decide
  rw [isBlankLine, toList_indented, List.all_append, hblanks, Bool.true_and, isBlankLine]

/-- The code has lines, and the last one is not blank. -/
def Code.Closes (codes : List Code) : Prop :=
  ∀ depth, ∃ line ∈ (Code.allLinesAt depth codes).getLast?, isBlankLine line = false

namespace Code.Closes

theorem line {text : String} (h : isBlankLine text = false) : Code.Closes [.line text] :=
  fun depth => ⟨indented depth text, by simp [allLinesAt, linesAt], (isBlankLine_indented depth text).trans h⟩

theorem append {second : List Code} (h : Closes second) (first : List Code) : Closes (first ++ second) := by
  intro depth
  obtain ⟨line, hline, hshown⟩ := h depth
  refine ⟨line, ?_, hshown⟩
  rw [allLinesAt_append, List.getLast?_append, Option.mem_def.mp hline]
  rfl

/-- A header closes a suite whose body has no lines. -/
theorem suite {header : String} {body : List Code} (hheader : isBlankLine header = false)
    (hbody : body = [] ∨ Closes body) : Closes [.suite header body] := by
  intro depth
  have hlines : allLinesAt depth [.suite header body] = [indented depth header] ++ allLinesAt (depth + 1) body := by
    simp [allLinesAt, linesAt]
  rw [hlines]
  rcases hbody with rfl | hbody
  · exact ⟨_, rfl, (isBlankLine_indented depth header).trans hheader⟩
  · obtain ⟨line, hline, hshown⟩ := hbody (depth + 1)
    refine ⟨line, ?_, hshown⟩
    rw [List.getLast?_append, Option.mem_def.mp hline]
    rfl

theorem flatten {parts : List (List Code)} (h : ∀ codes ∈ parts, Closes codes) :
    parts.flatten = [] ∨ Closes parts.flatten := by
  induction parts with
  | nil => exact Or.inl rfl
  | cons codes rest ih =>
    obtain ⟨hcodes, hrest⟩ := List.forall_mem_cons.mp h
    rw [List.flatten_cons]
    rcases ih hrest with hnone | hcloses
    · exact Or.inr (by rwa [hnone, List.append_nil])
    · exact Or.inr (hcloses.append codes)

/-- Code that begins with a line is a section if it closes. -/
theorem isSection_line {text : String} {rest : List Code} (h : Closes (.line text :: rest))
    (htext : isBlankLine text = false) : IsSection (Code.lines (.line text :: rest)) := by
  rw [lines_eq]
  exact ⟨⟨_, rfl, (isBlankLine_indented 0 text).trans htext⟩, h 0⟩

/-- Code that begins with a suite is a section if it closes. -/
theorem isSection_suite {header : String} {body rest : List Code} (h : Closes (.suite header body :: rest))
    (hheader : isBlankLine header = false) : IsSection (Code.lines (.suite header body :: rest)) := by
  rw [lines_eq]
  exact ⟨⟨_, rfl, (isBlankLine_indented 0 header).trans hheader⟩, h 0⟩

end Code.Closes

end StubGen
