import Mathlib.Data.List.Chain
import StubGen.Proofs.Layout.Printing
import StubGen.Proofs.Suite.Filled

/-!
# Well-nested lines

Lines are `WellNested` if decorators stand directly above what they decorate, headers have a statement in their suite,
and only headers are followed by deeper lines.

* `WellNested.append` and `WellNested.cons` put lines together, and `WellNested.of_append_blank` and
  `WellNested.of_blank_append` take blank ones off the ends.
* `WellNested.intercalate` is about the sections of a document.
-/

namespace StubGen

def isDecorator (line : String) : Bool := (bareText line).head? = some '@'

/-- The words that begin a definition. -/
def definitionWords : List String := ["class ", "def ", "async def "]

def isDefinition (line : String) : Bool := definitionWords.any (·.toList.isPrefixOf (bareText line))

/-- Whether the statements of a definition stand below the line.  Those of a function may stand in the line itself, and
then it does not end in a colon. -/
def isStubHeader (line : String) : Bool :=
  "class ".toList.isPrefixOf (bareText line) || isDefinition line && endsInColon (bareText line)

/-- Each of the lines has the property, together with the lines after it. -/
def EachWithRest (P : String → List String → Prop) : List String → Prop
  | [] => True
  | line :: rest => P line rest ∧ EachWithRest P rest

/-- A decorator has another one or a definition directly after it, at its depth. -/
def Decorates (line : String) (rest : List String) : Prop :=
  isDecorator line = true → ∃ next ∈ rest.head?, depthOf next = depthOf line ∧
    (isDecorator next = true ∨ isDefinition next = true)

/-- A header has a statement in its suite, one level deeper than itself. -/
def HasStatement (line : String) (rest : List String) : Prop :=
  isStubHeader line = true → ∃ statement ∈ suiteLines (depthOf line) rest,
    isStatementLine statement = true ∧ depthOf statement = depthOf line + 4

/-- A line is no deeper than the one before it, or that is a header and the line is one level deeper. -/
def Continues (line next : String) : Prop :=
  depthOf next ≤ depthOf line ∨ isStubHeader line = true ∧ depthOf next = depthOf line + 4

/-- The lines are nested, from this depth on.  Blank ones have no depth. -/
structure WellNested (depth : Nat) (lines : List String) : Prop where
  decorators : EachWithRest Decorates lines
  suites : EachWithRest HasStatement lines
  indents : (lines.filter isShownLine).IsChain Continues
  start : ∀ line ∈ (lines.filter isShownLine).head?, depthOf line = depth
  deep : ∀ line ∈ lines.filter isShownLine, depth ≤ depthOf line

namespace EachWithRest

variable {P : String → List String → Prop} {first second : List String}

theorem append (hfirst : EachWithRest P first) (hsecond : EachWithRest P second)
    (hmore : ∀ line rest, P line rest → P line (rest ++ second)) : EachWithRest P (first ++ second) := by
  induction first with
  | nil => exact hsecond
  | cons line rest ih => exact ⟨hmore line rest hfirst.1, ih hfirst.2⟩

theorem of_append_right (h : EachWithRest P (first ++ second)) : EachWithRest P second := by
  induction first with
  | nil => exact h
  | cons line rest ih => exact ih h.2

theorem of_append_left (h : EachWithRest P (first ++ second))
    (hless : ∀ line rest, P line (rest ++ second) → P line rest) : EachWithRest P first := by
  induction first with
  | nil => trivial
  | cons line rest ih => exact ⟨hless line rest h.1, ih h.2⟩

theorem of_forall (h : ∀ line ∈ first, ∀ rest, P line rest) : EachWithRest P first := by
  induction first with
  | nil => trivial
  | cons line rest ih =>
    obtain ⟨hline, hrest⟩ := List.forall_mem_cons.mp h
    exact ⟨hline rest, ih hrest⟩

end EachWithRest

/-! ### Blank lines -/

section Blank

variable {line : String} {blanks : List String}

/-- What begins with a visible character is not blank. -/
private theorem isShownLine_of_head {c : Char} (h : c ∈ bareText line) (hc : CodeSet.whiteSpace.contains c = false) :
    isShownLine line = true := by
  rw [isShownLine, Bool.not_eq_true', isBlankLine, List.all_eq_false]
  exact ⟨c, (List.dropWhile_suffix _).subset h, by simp [hc]⟩

theorem isShownLine_of_isDecorator (h : isDecorator line = true) : isShownLine line = true :=
  isShownLine_of_head (List.mem_of_mem_head? (of_decide_eq_true h)) (by decide)

theorem isShownLine_of_isDefinition (h : isDefinition line = true) : isShownLine line = true := by
  have hwords : ∀ word ∈ definitionWords, word.toList.all CodeSet.whiteSpace.contains = false := by decide
  obtain ⟨word, hword, hprefix⟩ := List.any_eq_true.mp h
  obtain ⟨c, hc, hshown⟩ := List.all_eq_false.mp (hwords word hword)
  exact isShownLine_of_head ((List.isPrefixOf_iff_prefix.mp hprefix).subset hc) (eq_false_of_ne_true hshown)

theorem isShownLine_of_isStatementLine (h : isStatementLine line = true) : isShownLine line = true :=
  (Bool.and_eq_true_iff.mp h).1

theorem isDefinition_of_isStubHeader (h : isStubHeader line = true) : isDefinition line = true := by
  rcases Bool.or_eq_true_iff.mp h with h | h
  · exact List.any_eq_true.mpr ⟨"class ", by decide, h⟩
  · exact (Bool.and_eq_true_iff.mp h).1

/-- A decorator is no definition. -/
theorem isDefinition_of_isDecorator (h : isDecorator line = true) : isDefinition line = false := by
  have hwords : ∀ word ∈ definitionWords, word.toList.head? ≠ some '@' ∧ word.toList ≠ [] := by decide
  rw [Bool.eq_false_iff]
  intro hdefinition
  obtain ⟨word, hword, hprefix⟩ := List.any_eq_true.mp hdefinition
  obtain ⟨rest, hrest⟩ := List.isPrefixOf_iff_prefix.mp hprefix
  obtain ⟨hmark, hne⟩ := hwords word hword
  rw [isDecorator, ← hrest, List.head?_append_of_ne_nil _ hne, decide_eq_true_eq] at h
  exact hmark h

private theorem filter_isShownLine_eq_nil (h : ∀ line ∈ blanks, isBlankLine line = true) :
    blanks.filter isShownLine = [] := by
  rw [List.filter_eq_nil_iff]
  intro line hline
  simp [isShownLine, h line hline]

end Blank

/-! ### Putting lines together -/

namespace WellNested

variable {depth inner : Nat} {line : String} {first second blanks : List String}

theorem of_blank (h : ∀ line ∈ blanks, isBlankLine line = true) : WellNested depth blanks := by
  have hshown : ∀ line ∈ blanks, isShownLine line ≠ true := fun line hline => by simp [isShownLine, h line hline]
  have hnil := filter_isShownLine_eq_nil h
  refine ⟨.of_forall fun line hline _ hdecorator => ?_, .of_forall fun line hline _ hheader => ?_, ?_, ?_, ?_⟩
  · exact absurd (isShownLine_of_isDecorator hdecorator) (hshown line hline)
  · exact absurd (isShownLine_of_isDefinition (isDefinition_of_isStubHeader hheader)) (hshown line hline)
  all_goals simp [hnil]

theorem append (hfirst : WellNested depth first) (hsecond : WellNested depth second) :
    WellNested depth (first ++ second) where
  decorators := by
    refine hfirst.decorators.append hsecond.decorators fun line rest hline hdecorator => ?_
    obtain ⟨next, hnext, hboth⟩ := hline hdecorator
    exact ⟨next, by rw [List.head?_append, hnext]; rfl, hboth⟩
  suites := by
    refine hfirst.suites.append hsecond.suites fun line rest hline hheader => ?_
    obtain ⟨statement, hstatement, hboth⟩ := hline hheader
    exact ⟨statement, suiteLines_append hstatement second, hboth⟩
  indents := by
    rw [List.filter_append, List.isChain_append]
    refine ⟨hfirst.indents, hsecond.indents, fun line hline next hnext => Or.inl ?_⟩
    rw [hsecond.start next hnext]
    exact hfirst.deep line (List.mem_of_mem_getLast? hline)
  start line hline := by
    rw [List.filter_append, List.head?_append] at hline
    cases hhead : (first.filter isShownLine).head? with
    | none =>
      rw [hhead] at hline
      exact hsecond.start line hline
    | some other =>
      rw [hhead] at hline
      exact hfirst.start line (hhead.trans hline)
  deep line hline := by
    rw [List.filter_append, List.mem_append] at hline
    exact hline.elim (hfirst.deep line) (hsecond.deep line)

/-- A line ahead of nested ones, which are deeper if it is a header. -/
theorem cons (h : WellNested inner first) (hshown : isShownLine line = true) (hdepth : depthOf line = depth)
    (hinner : inner = depth ∨ isStubHeader line = true ∧ inner = depth + 4) (hdecorates : Decorates line first)
    (hsuite : HasStatement line first) : WellNested depth (line :: first) where
  decorators := ⟨hdecorates, h.decorators⟩
  suites := ⟨hsuite, h.suites⟩
  indents := by
    rw [List.filter_cons_of_pos hshown, List.isChain_cons]
    refine ⟨fun next hnext => ?_, h.indents⟩
    have hnextDepth := h.start next hnext
    rcases hinner with heq | ⟨hheader, heq⟩
    · exact Or.inl (by omega)
    · exact Or.inr ⟨hheader, by omega⟩
  start other hother := by
    rw [List.filter_cons_of_pos hshown, List.head?_cons] at hother
    cases hother
    exact hdepth
  deep other hother := by
    rw [List.filter_cons_of_pos hshown, List.mem_cons] at hother
    rcases hother with rfl | hother
    · exact hdepth.ge
    · have := h.deep other hother
      omega

/-- A line that is neither a decorator nor a header. -/
theorem plain (hshown : isShownLine line = true) (hdepth : depthOf line = depth) (hdecorator : isDecorator line = false)
    (hheader : isStubHeader line = false) : WellNested depth [line] :=
  (of_blank (by simp)).cons hshown hdepth (Or.inl rfl) (by simp [Decorates, hdecorator])
    (by simp [HasStatement, hheader])

/-! ### Sections -/

theorem of_blank_append (h : WellNested depth (blanks ++ second)) (hblanks : ∀ line ∈ blanks, isBlankLine line = true) :
    WellNested depth second := by
  have hfilter : (blanks ++ second).filter isShownLine = second.filter isShownLine := by
    rw [List.filter_append, filter_isShownLine_eq_nil hblanks, List.nil_append]
  obtain ⟨hdecorators, hsuites, hindents, hstart, hdeep⟩ := h
  rw [hfilter] at hindents hstart hdeep
  exact ⟨hdecorators.of_append_right, hsuites.of_append_right, hindents, hstart, hdeep⟩

theorem of_append_blank (h : WellNested depth (first ++ blanks)) (hblanks : ∀ line ∈ blanks, isBlankLine line = true) :
    WellNested depth first := by
  have hfilter : (first ++ blanks).filter isShownLine = first.filter isShownLine := by
    rw [List.filter_append, filter_isShownLine_eq_nil hblanks, List.append_nil]
  have hshown : ∀ line ∈ blanks, isShownLine line ≠ true := fun line hline => by simp [isShownLine, hblanks line hline]
  obtain ⟨hdecorators, hsuites, hindents, hstart, hdeep⟩ := h
  rw [hfilter] at hindents hstart hdeep
  refine ⟨hdecorators.of_append_left fun line rest hline hdecorator => ?_,
    hsuites.of_append_left fun line rest hline hheader => ?_, hindents, hstart, hdeep⟩
  · -- what is decorated is not blank, so it is no line of the end
    obtain ⟨next, hnext, hdepth, hkind⟩ := hline hdecorator
    cases rest with
    | nil =>
      have hnextShown := hkind.elim isShownLine_of_isDecorator isShownLine_of_isDefinition
      exact absurd hnextShown (hshown next (List.mem_of_mem_head? hnext))
    | cons other rest => exact ⟨next, hnext, hdepth, hkind⟩
  · obtain ⟨statement, hstatement, hgood, hdepth⟩ := hline hheader
    refine ⟨statement, ?_, hgood, hdepth⟩
    rw [suiteLines, List.takeWhile_append] at hstatement
    split at hstatement
    · rename_i hall
      rcases List.mem_append.mp hstatement with hstatement | hstatement
      · rwa [suiteLines, (List.takeWhile_prefix _).eq_of_length hall]
      · have hblank := hshown statement ((List.takeWhile_prefix _).subset hstatement)
        exact absurd (isShownLine_of_isStatementLine hgood) hblank
    · exact hstatement

theorem trimBlankLines (h : WellNested depth first) : WellNested depth (trimBlankLines first) := by
  have hblank : ∀ line ∈ first.takeWhile isBlankLine, isBlankLine line = true := fun _ => List.mem_takeWhile_imp
  rw [← List.takeWhile_append_dropWhile (p := isBlankLine) (l := first)] at h
  have hrest := h.of_blank_append hblank
  have hends : ∀ line ∈ (first.dropWhile isBlankLine).rtakeWhile isBlankLine, isBlankLine line = true :=
    fun _ => List.mem_rtakeWhile_imp
  rw [← List.rdropWhile_append_rtakeWhile (p := isBlankLine) (l := first.dropWhile isBlankLine)] at hrest
  exact hrest.of_append_blank hends

/-- Sections with empty lines between them. -/
theorem intercalate {sections : List (List String)} (h : ∀ lines ∈ sections, WellNested depth lines) :
    WellNested depth (["", ""].intercalate sections) := by
  induction sections with
  | nil => exact of_blank (by simp)
  | cons lines rest ih =>
    obtain ⟨hlines, hrest⟩ := List.forall_mem_cons.mp h
    cases rest with
    | nil => simpa using hlines
    | cons next others =>
      rw [List.intercalate_cons_cons]
      exact (hlines.append (of_blank (by decide))).append (ih hrest)

/-- The text of a document is well-nested if its parts are. -/
theorem render {document : Document} (hheader : WellNested 0 (document.header.map trimEnd))
    (himports : WellNested 0 (document.imports.lines.map trimEnd))
    (hblocks : ∀ block ∈ document.blocks, WellNested 0 (block.map trimEnd))
    (hunbroken : ∀ line ∈ document.header ++ document.imports.lines ++ document.blocks.flatten,
      Unbroken (trimEnd line)) : WellNested 0 (textLines document.render) := by
  have hsections : ∀ lines ∈ document.sections, WellNested 0 (lines.map trimEnd) ∧
      ∀ line ∈ lines, line ∈ document.header ++ document.imports.lines ++ document.blocks.flatten := by
    intro lines hlines
    have hmem := List.mem_of_mem_filter hlines
    rcases List.mem_cons.mp hmem with rfl | hmem
    · refine ⟨?_, fun line hline => List.mem_append_left _ hline⟩
      rw [List.map_append]
      exact hheader.append himports
    · obtain ⟨block, hblock, rfl⟩ := List.mem_map.mp hmem
      refine ⟨?_, fun line hline => ?_⟩
      · rw [map_trimEnd_trimBlankLines]
        exact (hblocks block hblock).trimBlankLines
      · exact List.mem_append_right _ (List.mem_flatten.mpr ⟨block, hblock, trimBlankLines_subset block hline⟩)
  have hlines : ∀ lines ∈ document.sections, ∀ line ∈ lines, Unbroken (trimEnd line) :=
    fun lines hlines line hline => hunbroken line ((hsections lines hlines).2 line hline)
  rw [Document.textLines_render document hlines]
  refine (intercalate fun lines hlines => ?_).append (of_blank (by decide))
  obtain ⟨lines, hmem, rfl⟩ := List.mem_map.mp hlines
  exact (hsections lines hmem).1

end WellNested

end StubGen
