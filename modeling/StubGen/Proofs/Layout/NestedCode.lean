import StubGen.Proofs.Layout.Nesting

/-!
# Well-nested code

Code `Nests` if its lines are well-nested wherever it stands, as the text has them: without the blanks at their ends.

* `Code.Opens` is code that a decorator may stand above, and `Code.States` is code that can be a suite.
* `Code.Nests.plain`, `Code.Opens.stub`, `Code.Opens.suite` and `Code.Opens.decorated` are the ways to build such code.
-/

namespace StubGen

/-- A text that a line can be made of: it is not blank, begins at the margin and has no line break in it. -/
structure IsLineText (text : String) : Prop where
  shown : isBlankLine text = false
  margin : text.toList.head? ≠ some ' '
  unbroken : Unbroken text

namespace IsLineText

variable {text : String}

theorem toList_ne_nil (h : IsLineText text) : text.toList ≠ [] := by
  intro hnil
  have hshown := h.shown
  rw [isBlankLine, hnil] at hshown
  cases hshown

theorem head?_append (h : IsLineText text) (more : String) : (text ++ more).toList.head? = text.toList.head? := by
  rw [String.toList_append, List.head?_append_of_ne_nil _ h.toList_ne_nil]

theorem append (h : IsLineText text) {more : String} (hmore : Unbroken more) : IsLineText (text ++ more) where
  shown := by
    have hshown := h.shown
    rw [isBlankLine] at hshown ⊢
    rw [String.toList_append, List.all_append, hshown, Bool.false_and]
  margin := by
    rw [h.head?_append]
    exact h.margin
  unbroken := h.unbroken.append hmore

theorem bareText_eq (h : IsLineText text) : bareText text = text.toList := by
  have hmargin := h.margin
  rw [bareText]
  cases hlist : text.toList with
  | nil => rfl
  | cons c rest =>
    rw [hlist, List.head?_cons] at hmargin
    exact List.dropWhile_cons_of_neg (by simpa using hmargin)

theorem depthOf_eq (h : IsLineText text) : depthOf text = 0 := by
  have hsplit := congrArg List.length (List.takeWhile_append_dropWhile (p := fun c => c = ' ') (l := text.toList))
  rw [List.length_append, ← bareText, h.bareText_eq] at hsplit
  rw [depthOf]
  omega

/-- Trimming leaves the first character. -/
theorem head?_trimEnd (h : IsLineText text) : (trimEnd text).toList.head? = text.toList.head? := by
  obtain ⟨blanks, heq⟩ := isPrefix_trimEnd text
  have hne : (StubGen.trimEnd text).toList ≠ [] := by
    intro hnil
    have hshown := isBlankLine_trimEnd text
    rw [h.shown, isBlankLine, hnil] at hshown
    cases hshown
  rw [← heq, List.head?_append_of_ne_nil _ hne]

theorem trimEnd (h : IsLineText text) : IsLineText (trimEnd text) where
  shown := (isBlankLine_trimEnd text).trans h.shown
  margin := by
    rw [h.head?_trimEnd]
    exact h.margin
  unbroken := h.unbroken.trimEnd

end IsLineText

/-- The lines of code at a depth, as the text has them. -/
def Code.printedAt (depth : Nat) (codes : List Code) : List String := (Code.allLinesAt depth codes).map trimEnd

theorem Code.printedAt_append (depth : Nat) (first second : List Code) :
    printedAt depth (first ++ second) = printedAt depth first ++ printedAt depth second := by
  rw [printedAt, allLinesAt_append, List.map_append, printedAt, printedAt]

/-- The lines of the code are well-nested wherever it stands, and no line has a break in it. -/
structure Code.Nests (codes : List Code) : Prop where
  nested : ∀ depth, WellNested (4 * depth) (printedAt depth codes)
  unbroken : ∀ depth, ∀ line ∈ printedAt depth codes, Unbroken line

/-- The code begins with a decorator or a definition. -/
structure Code.Opens (codes : List Code) : Prop extends Code.Nests codes where
  opening : ∀ depth, ∃ next ∈ (printedAt depth codes).head?, depthOf next = 4 * depth ∧
    (isDecorator next = true ∨ isDefinition next = true)

/-- The code has a statement that is no part of a suite. -/
def Code.States (codes : List Code) : Prop :=
  ∀ depth, ∃ statement ∈ printedAt depth codes, isStatementLine statement = true ∧ depthOf statement = 4 * depth

/-! ### Lines of texts -/

section Printed

variable {text : String}

/-- The line of a text, as the document has it. -/
private def printed (depth : Nat) (text : String) : String := indented depth (trimEnd text)

private theorem printedAt_line (h : IsLineText text) (depth : Nat) :
    Code.printedAt depth [.line text] = [printed depth text] := by
  rw [Code.printedAt, Code.allLinesAt, Code.linesAt, Code.allLinesAt, List.append_nil, List.map_singleton,
    trimEnd_indented h.shown, printed]

private theorem bareText_printed (h : IsLineText text) (depth : Nat) :
    bareText (printed depth text) = (trimEnd text).toList := by
  rw [printed, bareText_indented, h.trimEnd.bareText_eq]

private theorem depthOf_printed (h : IsLineText text) (depth : Nat) : depthOf (printed depth text) = 4 * depth := by
  rw [printed, depthOf_indented, h.trimEnd.depthOf_eq, Nat.add_zero]

private theorem isShownLine_printed (h : IsLineText text) (depth : Nat) : isShownLine (printed depth text) = true := by
  rw [isShownLine, isBlankLine, printed, toList_indented, List.all_append]
  have hshown := h.trimEnd.shown
  rw [isBlankLine] at hshown
  simp [hshown]

private theorem unbroken_printed (h : IsLineText text) (depth : Nat) : Unbroken (printed depth text) := by
  rw [Unbroken, printed, toList_indented, List.mem_append]
  rintro (hmem | hmem)
  · cases List.eq_of_mem_replicate hmem
  · exact h.trimEnd.unbroken hmem

private theorem isDecorator_printed (h : IsLineText text) (depth : Nat) :
    isDecorator (printed depth text) = isDecorator text := by
  rw [isDecorator, bareText_printed h, h.head?_trimEnd, isDecorator, h.bareText_eq]

private theorem isDefinition_of_printed (h : IsLineText text) {depth : Nat}
    (hdefinition : isDefinition (printed depth text) = true) : isDefinition text = true := by
  rw [isDefinition, bareText_printed h] at hdefinition
  obtain ⟨word, hword, hprefix⟩ := List.any_eq_true.mp hdefinition
  rw [isDefinition, h.bareText_eq]
  exact List.any_eq_true.mpr ⟨word, hword,
    List.isPrefixOf_iff_prefix.mpr ((List.isPrefixOf_iff_prefix.mp hprefix).trans (isPrefix_trimEnd text))⟩

private theorem isStatementLine_printed (h : IsLineText text) (hcomment : text.toList.head? ≠ some '#') (depth : Nat) :
    isStatementLine (printed depth text) = true := by
  have hshown := isShownLine_printed h depth
  rw [isShownLine] at hshown
  rw [isStatementLine, hshown, bareText_printed h, h.head?_trimEnd]
  simpa using hcomment

/-- Where nothing is trimmed, the line is of the kind of its text. -/
private theorem printed_eq (h : trimEnd text = text) (depth : Nat) :
    bareText (printed depth text) = bareText text := by
  rw [printed, h, bareText_indented]

end Printed

/-! ### Code -/

namespace Code

variable {codes first second : List Code} {text header : String}

namespace Nests

theorem nil : Nests [] := ⟨fun _ => .of_blank (by simp [printedAt, allLinesAt]), by simp [printedAt, allLinesAt]⟩

theorem append (hfirst : Nests first) (hsecond : Nests second) : Nests (first ++ second) where
  nested depth := by
    rw [printedAt_append]
    exact (hfirst.nested depth).append (hsecond.nested depth)
  unbroken depth := by
    rw [printedAt_append]
    exact List.forall_mem_append.mpr ⟨hfirst.unbroken depth, hsecond.unbroken depth⟩

theorem blank (count : Nat) : Nests [.blank count] := by
  have hempty : ∀ depth, ∀ line ∈ printedAt depth [.blank count], line = "" := by
    intro depth line hline
    obtain ⟨empty, hmem, rfl⟩ := List.mem_map.mp hline
    rw [allLinesAt, linesAt, allLinesAt, List.append_nil] at hmem
    rw [List.eq_of_mem_replicate hmem]
    rfl
  exact ⟨fun depth => .of_blank fun line hline => by rw [hempty depth line hline]; rfl,
    fun depth line hline => by rw [hempty depth line hline]; decide⟩

/-- A line that is neither a decorator nor a definition. -/
theorem plain (h : IsLineText text) (hdecorator : isDecorator text = false) (hdefinition : isDefinition text = false) :
    Nests [.line text] where
  nested depth := by
    rw [printedAt_line h]
    refine .plain (isShownLine_printed h depth) (depthOf_printed h depth) ?_ ?_
    · rw [isDecorator_printed h, hdecorator]
    · rw [Bool.eq_false_iff]
      intro hheader
      rw [isDefinition_of_printed h (isDefinition_of_isStubHeader hheader)] at hdefinition
      cases hdefinition
  unbroken depth line hline := by
    rw [printedAt_line h, List.mem_singleton] at hline
    rw [hline]
    exact unbroken_printed h depth

end Nests

namespace States

theorem line (h : IsLineText text) (hcomment : text.toList.head? ≠ some '#') : States [.line text] := fun depth =>
  ⟨_, by rw [printedAt_line h]; exact List.mem_singleton_self _, isStatementLine_printed h hcomment depth,
    depthOf_printed h depth⟩

theorem append_left (h : States first) (second : List Code) : States (first ++ second) := by
  intro depth
  obtain ⟨statement, hmem, hboth⟩ := h depth
  exact ⟨statement, by rw [printedAt_append]; exact List.mem_append_left _ hmem, hboth⟩

theorem append_right (first : List Code) (h : States second) : States (first ++ second) := by
  intro depth
  obtain ⟨statement, hmem, hboth⟩ := h depth
  exact ⟨statement, by rw [printedAt_append]; exact List.mem_append_right _ hmem, hboth⟩

end States

namespace Opens

theorem append (hfirst : Opens first) (hsecond : Nests second) : Opens (first ++ second) where
  toNests := hfirst.toNests.append hsecond
  opening depth := by
    obtain ⟨next, hnext, hboth⟩ := hfirst.opening depth
    exact ⟨next, by rw [printedAt_append, List.head?_append, hnext]; rfl, hboth⟩

/-- A definition that has its statements in its line. -/
theorem stub (h : IsLineText text) (hlast : trimEnd text = text) (hdefinition : isDefinition text = true)
    (hheader : isStubHeader text = false) (hdecorator : isDecorator text = false) : Opens [.line text] := by
  have hlines := printedAt_line h
  have hkind : ∀ depth, isStubHeader (printed depth text) = false ∧ isDefinition (printed depth text) = true := by
    intro depth
    rw [isStubHeader, isDefinition, printed_eq hlast]
    exact ⟨hheader, hdefinition⟩
  refine ⟨⟨fun depth => ?_, fun depth line hline => ?_⟩, fun depth => ?_⟩
  · rw [hlines]
    refine .plain (isShownLine_printed h depth) (depthOf_printed h depth) ?_ (hkind depth).1
    rw [isDecorator_printed h, hdecorator]
  · rw [hlines, List.mem_singleton] at hline
    rw [hline]
    exact unbroken_printed h depth
  · rw [hlines]
    exact ⟨_, rfl, depthOf_printed h depth, Or.inr (hkind depth).2⟩

/-- A definition with a suite that has a statement in it. -/
theorem suite (h : IsLineText header) (hlast : trimEnd header = header) (hheader : isStubHeader header = true)
    (hdecorator : isDecorator header = false) (hbody : Nests codes) (hstates : States codes) :
    Opens [.suite header codes] := by
  have hlines : ∀ depth,
      printedAt depth [.suite header codes] = printed depth header :: printedAt (depth + 1) codes := by
    intro depth
    rw [printedAt, allLinesAt, linesAt, allLinesAt, List.append_nil, List.map_cons, trimEnd_indented h.shown, printed,
      printedAt]
  have hkind : ∀ depth, isStubHeader (printed depth header) = true := by
    intro depth
    rw [isStubHeader, isDefinition, printed_eq hlast]
    exact hheader
  have hstart : ∀ depth, depthOf (printed depth header) = 4 * depth := depthOf_printed h
  refine ⟨⟨fun depth => ?_, fun depth => ?_⟩, fun depth => ?_⟩
  · rw [hlines]
    refine (hbody.nested (depth + 1)).cons (isShownLine_printed h depth) (hstart depth)
      (Or.inr ⟨hkind depth, by omega⟩) (fun hmark => ?_) fun _ => ?_
    · rw [isDecorator_printed h, hdecorator] at hmark
      cases hmark
    · obtain ⟨statement, hmem, hgood, hdepth⟩ := hstates (depth + 1)
      refine ⟨statement, ?_, hgood, by rw [hdepth, hstart]; omega⟩
      -- all lines of the body are blank or deeper than the header
      have hall : suiteLines (depthOf (printed depth header)) (printedAt (depth + 1) codes) =
          printedAt (depth + 1) codes := by
        refine List.takeWhile_eq_self_iff.mpr fun line hline => ?_
        cases hblank : isBlankLine line with
        | true => rfl
        | false =>
          have hshown : isShownLine line = true := by simp [isShownLine, hblank]
          have hdeep := (hbody.nested (depth + 1)).deep line (List.mem_filter.mpr ⟨hline, hshown⟩)
          rw [hstart]
          simp only [Bool.false_or, decide_eq_true_eq]
          omega
      rw [hall]
      exact hmem
  · rw [hlines]
    exact List.forall_mem_cons.mpr ⟨unbroken_printed h depth, hbody.unbroken (depth + 1)⟩
  · rw [hlines]
    exact ⟨_, rfl, hstart depth, Or.inr (isDefinition_of_isStubHeader (hkind depth))⟩

/-- A decorator above a definition. -/
theorem decorated (h : IsLineText text) (hdecorator : isDecorator text = true) (hcodes : Opens codes) :
    Opens (.line text :: codes) := by
  have hlines : ∀ depth, printedAt depth (.line text :: codes) = printed depth text :: printedAt depth codes := by
    intro depth
    rw [← List.singleton_append, printedAt_append, printedAt_line h, List.singleton_append]
  have hmark : ∀ depth, isDecorator (printed depth text) = true := by
    intro depth
    rw [isDecorator_printed h, hdecorator]
  have hheader : ∀ depth, isStubHeader (printed depth text) = false := by
    intro depth
    rw [Bool.eq_false_iff]
    intro hheader
    have hdefinition := isDefinition_of_isStubHeader hheader
    rw [isDefinition_of_isDecorator (hmark depth)] at hdefinition
    cases hdefinition
  refine ⟨⟨fun depth => ?_, fun depth => ?_⟩, fun depth => ?_⟩
  · rw [hlines]
    obtain ⟨next, hnext, hdepth, hkind⟩ := hcodes.opening depth
    refine (hcodes.nested depth).cons (isShownLine_printed h depth) (depthOf_printed h depth) (Or.inl rfl)
      (fun _ => ⟨next, hnext, by rw [hdepth, depthOf_printed h], hkind⟩) fun hcolon => ?_
    rw [hheader depth] at hcolon
    cases hcolon
  · rw [hlines]
    exact List.forall_mem_cons.mpr ⟨unbroken_printed h depth, hcodes.unbroken depth⟩
  · rw [hlines]
    exact ⟨_, rfl, depthOf_printed h depth, Or.inl (hmark depth)⟩

end Opens

end Code

end StubGen
