import Mathlib.Data.List.Forall2
import StubGen.Proofs.Layout.Sections

/-!
# Rendered documents

A document is rendered section by section, with two empty lines between any two (`Document.exists_renderLaws`).

* `IsCore` says what a block has between the blank lines at its ends, and `isCore_trimBlankLines` that trimming gives
  it.
* `Document.render_eq_unlines` gives the text as lines that are each ended.
* `Document.render_again`: a text made of blocks comes out the same if its lines are rendered as one block.
-/

namespace StubGen

/-- The text of some lines, with an end to each. -/
def unlines (lines : List String) : String := String.join (lines.map (· ++ "\n"))

theorem unlines_append (first second : List String) : unlines (first ++ second) = unlines first ++ unlines second := by
  rw [unlines, List.map_append, String.join_append, unlines, unlines]

/-! ### Trimmed lines and blocks -/

theorem trimEnd_idem (text : String) : trimEnd (trimEnd text) = trimEnd text := by
  have hchars : ∀ text : String, trimEnd text = String.ofList (text.toList.rdropWhile CodeSet.whiteSpace.contains) :=
    fun _ => rfl
  rw [hchars, hchars, String.toList_ofList, List.rdropWhile_idempotent]

/-- The core is what the block has between the blank lines at its ends. -/
structure IsCore (block core : List String) : Prop where
  around : ∃ front back, block = front ++ core ++ back ∧ ∀ line ∈ front ++ back, isBlankLine line = true
  shown : core = [] ∨ IsSection core

theorem isCore_trimBlankLines (block : List String) : IsCore block (trimBlankLines block) where
  around := by
    have hblock : block.takeWhile isBlankLine ++ block.dropWhile isBlankLine = block := List.takeWhile_append_dropWhile
    have hrest : trimBlankLines block ++ (block.dropWhile isBlankLine).rtakeWhile isBlankLine =
        block.dropWhile isBlankLine := List.rdropWhile_append_rtakeWhile
    refine ⟨block.takeWhile isBlankLine, (block.dropWhile isBlankLine).rtakeWhile isBlankLine, ?_, ?_⟩
    · rw [List.append_assoc, hrest, hblock]
    · refine List.forall_mem_append.mpr ⟨fun line hline => List.mem_takeWhile_imp hline, fun line hline => ?_⟩
      exact List.mem_rtakeWhile_imp hline
  shown := (eq_or_ne (trimBlankLines block) []).imp_right isSection_trimBlankLines

theorem trimBlankLines_eq_nil {block : List String} (h : ∀ line ∈ block, isBlankLine line = true) :
    trimBlankLines block = [] := by
  rw [trimBlankLines, List.dropWhile_eq_nil_iff.mpr h]
  rfl

/-- Trimming the lines of a section leaves a section. -/
theorem IsSection.map_trimEnd {lines : List String} (h : IsSection lines) : IsSection (lines.map trimEnd) where
  first := by
    obtain ⟨line, hline, hshown⟩ := h.first
    exact ⟨trimEnd line, by simp [Option.mem_def.mp hline], (isBlankLine_trimEnd line).trans hshown⟩
  last := by
    obtain ⟨line, hline, hshown⟩ := h.last
    exact ⟨trimEnd line, by simp [Option.mem_def.mp hline], (isBlankLine_trimEnd line).trans hshown⟩

namespace Document

/-! ### Documents -/

/-- The lines of sections, trimmed, with two empty lines between any two. -/
def bodyLines (sections : List (List String)) : List String := ["", ""].intercalate (sections.map (·.map trimEnd))

theorem trimEnd_of_mem_bodyLines {sections : List (List String)} :
    ∀ line ∈ bodyLines sections, trimEnd line = line := by
  unfold bodyLines
  induction sections with
  | nil => exact List.forall_mem_nil _
  | cons lines rest ih =>
    have hlines : ∀ line ∈ lines.map trimEnd, trimEnd line = line :=
      List.forall_mem_map.mpr fun line _ => trimEnd_idem line
    cases rest with
    | nil => simpa using hlines
    | cons next others =>
      have hempty : ∀ line ∈ ["", ""], trimEnd line = line := by decide
      rw [List.map_cons, List.map_cons, List.intercalate_cons_cons, ← List.map_cons]
      exact List.forall_mem_append.mpr ⟨List.forall_mem_append.mpr ⟨hlines, hempty⟩, ih⟩

theorem render_eq_unlines (document : Document) : document.render = unlines (bodyLines document.sections) := by
  have hsection : ∀ lines : List String, sectionText lines = unlines (lines.map trimEnd) := fun lines => by
    rw [sectionText, unlines, List.map_map]
    rfl
  unfold render bodyLines
  generalize document.sections = sections
  induction sections with
  | nil => rfl
  | cons lines rest ih =>
    cases rest with
    | nil => simp [hsection]
    | cons next others =>
      have hbetween : unlines ["", ""] = "\n\n" := rfl
      rw [List.map_cons, List.map_cons, List.map_cons, List.map_cons, String.intercalate_cons_cons,
        List.intercalate_cons_cons, unlines_append, unlines_append, hbetween, hsection, ← List.map_cons, ih,
        List.map_cons]

variable {document : Document}

/-- The lines of sections are among those of the document. -/
theorem unbroken_of_mem_sections
    (h : ∀ line ∈ document.header ++ document.imports.lines ++ document.blocks.flatten, Unbroken line) :
    ∀ lines ∈ document.sections, ∀ line ∈ lines, Unbroken (trimEnd line) := by
  obtain ⟨hhead, hblocks⟩ := List.forall_mem_append.mp h
  intro lines hlines line hline
  rcases List.mem_cons.mp (List.mem_filter.mp hlines).1 with rfl | hlines
  · exact (hhead line hline).trimEnd
  · obtain ⟨block, hblock, rfl⟩ := List.mem_map.mp hlines
    exact (hblocks line (List.mem_flatten.mpr ⟨block, hblock, trimBlankLines_subset block hline⟩)).trimEnd

/-- A block of blank lines has no section. -/
theorem sections_append_cons (header : List String) (imports : Imports) (before after : List (List String))
    {block : List String} (h : ∀ line ∈ block, isBlankLine line = true) :
    sections ⟨header, imports, before ++ block :: after⟩ = sections ⟨header, imports, before ++ after⟩ := by
  simp [sections, trimBlankLines_eq_nil h, List.filter_cons]

theorem sections_singleton {lines : List String} (h : IsSection lines) :
    sections ⟨[], Imports.empty, [lines]⟩ = [lines] := by
  have hkept : trimBlankLines lines = lines := h.trimBlankLines_append (List.forall_mem_nil _)
  simp [sections, Imports.lines, Imports.empty, hkept, h.ne_nil]

theorem isSection_of_mem_sections (hheader : document.header = []) (himports : document.imports = Imports.empty) :
    ∀ lines ∈ document.sections, IsSection lines := by
  intro lines hlines
  obtain ⟨hmem, hne⟩ := List.mem_filter.mp hlines
  rcases List.mem_cons.mp hmem with rfl | hmem
  · rw [hheader, himports] at hne
    cases hne
  · obtain ⟨block, -, rfl⟩ := List.mem_map.mp hmem
    exact isSection_trimBlankLines (of_decide_eq_true hne)

/-- A text made of blocks only comes out the same if its lines are a single block. -/
theorem render_again (hheader : document.header = []) (himports : document.imports = Imports.empty) :
    render ⟨[], Imports.empty, [bodyLines document.sections]⟩ = document.render := by
  have htrimmed : (bodyLines document.sections).map trimEnd = bodyLines document.sections :=
    (List.map_congr_left trimEnd_of_mem_bodyLines).trans (List.map_id' _)
  rw [render_eq_unlines, render_eq_unlines]
  by_cases hsections : document.sections = []
  · rw [hsections]
    rfl
  · have hbody : IsSection (bodyLines document.sections) := by
      refine IsSection.intercalate (List.forall_mem_map.mpr fun lines hlines => ?_) (by simpa using hsections)
      exact (isSection_of_mem_sections hheader himports lines hlines).map_trimEnd
    rw [sections_singleton hbody, bodyLines, List.map_singleton, List.intercalate_singleton, htrimmed]

/-- What a document is rendered to, told from the cores of its blocks. -/
structure RenderLaws (document : Document) (cores : List (List String)) : Prop where
  isCore : List.Forall₂ IsCore document.blocks cores
  render : document.render =
    unlines (bodyLines (((document.header ++ document.imports.lines) :: cores).filter (· ≠ [])))
  /-- No line of the text is cut short or run together with another one. -/
  textLines : textLines document.render =
    bodyLines (((document.header ++ document.imports.lines) :: cores).filter (· ≠ [])) ++ [""]
  trimmed : ∀ line ∈ StubGen.textLines document.render, trimEnd line = line
  /-- Blocks of blank lines contribute nothing. -/
  dropped : ∀ before block after, document.blocks = before ++ block :: after →
    (∀ line ∈ block, isBlankLine line = true) →
    Document.render ⟨document.header, document.imports, before ++ after⟩ = document.render
  /-- Without header and imports the text is left as it is by another pass. -/
  again : document.header = [] → document.imports = Imports.empty →
    Document.render ⟨[], Imports.empty, [(StubGen.textLines document.render).dropLast]⟩ = document.render

theorem exists_renderLaws
    (h : ∀ line ∈ document.header ++ document.imports.lines ++ document.blocks.flatten, Unbroken line) :
    ∃ cores, RenderLaws document cores := by
  have hlines : textLines document.render = bodyLines document.sections ++ [""] :=
    document.textLines_render (unbroken_of_mem_sections h)
  refine ⟨document.blocks.map trimBlankLines, ?isCore, document.render_eq_unlines, hlines, ?trimmed, ?dropped, ?again⟩
  case isCore => exact List.forall₂_map_right_iff.mpr (List.forall₂_same.mpr fun block _ => isCore_trimBlankLines block)
  case trimmed =>
    rw [hlines]
    exact List.forall_mem_append.mpr ⟨trimEnd_of_mem_bodyLines, by decide⟩
  case dropped =>
    intro before block after hblocks hblank
    obtain ⟨header, imports, blocks⟩ := document
    subst hblocks
    rw [render_eq_unlines, render_eq_unlines, sections_append_cons header imports before after hblank]
  case again =>
    intro hheader himports
    rw [hlines, List.dropLast_concat]
    exact render_again hheader himports

/-- Blocks with blank lines at their ends, and one of blank lines only. -/
def spacedBlocks : Document :=
  ⟨[], Imports.empty, [["", "x = 1  ", "   ", "y = 2", " "], ["  ", ""], ["def f():", "    return x"]]⟩

theorem exists_renderLaws_spacedBlocks :
    (∀ line ∈ spacedBlocks.header ++ spacedBlocks.imports.lines ++ spacedBlocks.blocks.flatten, Unbroken line) ∧
      (∃ cores, RenderLaws spacedBlocks cores) ∧
      spacedBlocks.render = "x = 1\n\ny = 2\n\n\ndef f():\n    return x\n" ∧
      Document.render ⟨[], Imports.empty, [["x = 1", "", "y = 2", "", "", "def f():", "    return x"]]⟩ =
        spacedBlocks.render := by
  have hunbroken :
      ∀ line ∈ spacedBlocks.header ++ spacedBlocks.imports.lines ++ spacedBlocks.blocks.flatten, Unbroken line := by
    decide
  obtain ⟨cores, hlaws⟩ := exists_renderLaws hunbroken
  have hlines : (StubGen.textLines spacedBlocks.render).dropLast =
      ["x = 1", "", "y = 2", "", "", "def f():", "    return x"] := by decide
  refine ⟨hunbroken, ⟨cores, hlaws⟩, by decide, ?_⟩
  rw [← hlines]
  exact hlaws.again rfl rfl

end Document

end StubGen
