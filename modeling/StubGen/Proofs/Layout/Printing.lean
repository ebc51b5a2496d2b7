import Mathlib.Data.List.DropRight
import StubGen.Layout.Document
import StubGen.Proofs.Layout.LoopLevel

/-!
# The lines of a document's text

The text of a document is cut at its line breaks.  If no line that went into the document has a break in it, the lines
are those of its sections without the blanks at their ends, with two empty ones between sections
(`Document.textLines_render`).

* `Unbroken` texts have no break in them, and putting them together makes none.
* `trimEnd_indented` and `isBlankLine_trimEnd` say what trimming leaves of a line.
-/

namespace StubGen

/-- The lines of a text: what stands between its line breaks. -/
def textLines (text : String) : List String := (text.toList.splitOn '\n').map String.ofList

/-- The text has no line break in it. -/
def Unbroken (text : String) : Prop := '\n' ∉ text.toList

instance (text : String) : Decidable (Unbroken text) := inferInstanceAs (Decidable ('\n' ∉ text.toList))

theorem unbroken_append {first second : String} : Unbroken (first ++ second) ↔ Unbroken first ∧ Unbroken second := by
  rw [Unbroken, String.toList_append, List.mem_append, not_or, Unbroken, Unbroken]

namespace Unbroken

variable {first second : String}

theorem append (hfirst : Unbroken first) (hsecond : Unbroken second) : Unbroken (first ++ second) :=
  unbroken_append.mpr ⟨hfirst, hsecond⟩

theorem intercalate {separator : String} {texts : List String} (hseparator : Unbroken separator)
    (h : ∀ text ∈ texts, Unbroken text) : Unbroken (separator.intercalate texts) := by
  induction texts with
  | nil => simp [Unbroken]
  | cons text rest ih =>
    obtain ⟨htext, hrest⟩ := List.forall_mem_cons.mp h
    cases rest with
    | nil => simpa using htext
    | cons next others =>
      rw [String.intercalate_cons_cons]
      exact (htext.append hseparator).append (ih hrest)

theorem decimal (number : Nat) : Unbroken (toString number) := by
  intro h
  have hmem : '\n' ∈ Nat.toDigits 10 number := by simpa [Nat.repr] using h
  cases Nat.isDigit_of_mem_toDigits (by decide) (by decide) hmem

end Unbroken

/-! ### Trimmed lines -/

/-- What trimming leaves of a text: all up to the last character that is no blank. -/
private theorem trimEnd_eq {text : String} {start blanks : List Char} {last : Char}
    (h : text.toList = start ++ last :: blanks) (hlast : CodeSet.whiteSpace.contains last = false)
    (hblanks : ∀ c ∈ blanks, CodeSet.whiteSpace.contains c = true) :
    trimEnd text = String.ofList (start ++ [last]) := by
  have hreverse : text.toList.reverse = blanks.reverse ++ last :: start.reverse := by simp [h]
  rw [trimEnd, hreverse, List.dropWhile_append_of_pos (fun c hc => hblanks c (List.mem_reverse.mp hc)),
    List.dropWhile_cons_of_neg (by simp [hlast])]
  simp

/-- A text that is not blank has a last character that is no blank. -/
private theorem exists_last {text : String} (h : isBlankLine text = false) : ∃ start last blanks,
    text.toList = start ++ last :: blanks ∧ CodeSet.whiteSpace.contains last = false ∧
      ∀ c ∈ blanks, CodeSet.whiteSpace.contains c = true := by
  have hne : text.toList.rdropWhile CodeSet.whiteSpace.contains ≠ [] := by
    rw [ne_eq, List.rdropWhile_eq_nil_iff]
    intro hall
    rw [isBlankLine, List.all_eq_true.mpr hall] at h
    cases h
  have htext : text.toList.rdropWhile CodeSet.whiteSpace.contains ++
      text.toList.rtakeWhile CodeSet.whiteSpace.contains = text.toList := List.rdropWhile_append_rtakeWhile
  rw [← List.dropLast_append_getLast hne, List.append_assoc] at htext
  exact ⟨_, _, _, htext.symm, Bool.eq_false_iff.mpr (List.rdropWhile_last_not _ _ hne),
    fun c hc => List.mem_rtakeWhile_imp hc⟩

theorem isPrefix_trimEnd (text : String) : (trimEnd text).toList <+: text.toList := by
  rw [trimEnd, String.toList_ofList]
  exact List.rdropWhile_prefix _ _

theorem Unbroken.trimEnd {text : String} (h : Unbroken text) : Unbroken (trimEnd text) :=
  fun hmem => h ((isPrefix_trimEnd text).subset hmem)

theorem isBlankLine_trimEnd (text : String) : isBlankLine (trimEnd text) = isBlankLine text := by
  cases hblank : isBlankLine text with
  | true => exact List.all_eq_true.mpr fun c hc => List.all_eq_true.mp hblank c ((isPrefix_trimEnd text).subset hc)
  | false =>
    obtain ⟨start, last, blanks, htext, hlast, hblanks⟩ := exists_last hblank
    rw [trimEnd_eq htext hlast hblanks, isBlankLine]
    simp [hlast]

/-- Trimming a line that is not blank keeps its depth. -/
theorem trimEnd_indented {text : String} (h : isBlankLine text = false) (depth : Nat) :
    trimEnd (indented depth text) = indented depth (trimEnd text) := by
  obtain ⟨start, last, blanks, htext, hlast, hblanks⟩ := exists_last h
  have hline : (indented depth text).toList = (List.replicate (4 * depth) ' ' ++ start) ++ last :: blanks := by
    rw [toList_indented, htext, List.append_assoc]
  rw [trimEnd_eq hline hlast hblanks, trimEnd_eq htext hlast hblanks, ← String.toList_inj, toList_indented]
  simp

/-- A text whose last character is no blank is left as it is. -/
theorem trimEnd_eq_self {text : String} (h : text.toList.getLast?.any (!CodeSet.whiteSpace.contains ·) = true) :
    trimEnd text = text := by
  obtain ⟨last, hlast, hshown⟩ := (Option.any_eq_true _ _).mp h
  obtain ⟨start, heq⟩ := List.getLast?_eq_some_iff.mp hlast
  rw [trimEnd_eq heq (by simpa using hshown) (by simp), ← heq, String.ofList_toList]

/-- Blank lines are the same ones after trimming. -/
theorem map_trimEnd_trimBlankLines (lines : List String) :
    (trimBlankLines lines).map trimEnd = trimBlankLines (lines.map trimEnd) := by
  have hblank : isBlankLine ∘ trimEnd = isBlankLine := by
    funext line
    rw [Function.comp_apply, isBlankLine_trimEnd]
  simp only [trimBlankLines, List.dropWhile_map, ← List.map_reverse, hblank]

theorem trimBlankLines_subset (lines : List String) : trimBlankLines lines ⊆ lines := by
  have hstart : lines.dropWhile isBlankLine ⊆ lines := (List.dropWhile_suffix _).subset
  exact List.Subset.trans (List.rdropWhile_prefix isBlankLine (lines.dropWhile isBlankLine)).subset hstart

/-! ### Documents -/

theorem textLines_append {line : String} (h : Unbroken line) (rest : String) :
    textLines (line ++ "\n" ++ rest) = line :: textLines rest := by
  have hlist : (line ++ "\n" ++ rest).toList = line.toList ++ '\n' :: rest.toList := by
    rw [String.toList_append, String.toList_append, List.append_assoc]
    rfl
  rw [textLines, hlist, List.splitOn_append_cons_self_of_not_mem h, List.map_cons, String.ofList_toList, textLines]

namespace Document

private theorem textLines_sectionText {lines : List String} (h : ∀ line ∈ lines, Unbroken (trimEnd line))
    (rest : String) : textLines (sectionText lines ++ rest) = lines.map trimEnd ++ textLines rest := by
  induction lines with
  | nil => simp [sectionText]
  | cons line others ih =>
    obtain ⟨hline, hothers⟩ := List.forall_mem_cons.mp h
    have htext : sectionText (line :: others) ++ rest = trimEnd line ++ "\n" ++ (sectionText others ++ rest) := by
      simp [sectionText, String.append_assoc]
    rw [htext, textLines_append hline, ih hothers, List.map_cons, List.cons_append]

/-- The lines of the text are those of the sections, trimmed, with two empty lines between sections. -/
theorem textLines_render (document : Document)
    (h : ∀ lines ∈ document.sections, ∀ line ∈ lines, Unbroken (trimEnd line)) :
    textLines document.render = ["", ""].intercalate (document.sections.map (·.map trimEnd)) ++ [""] := by
  unfold render
  generalize document.sections = sections at h
  induction sections with
  | nil => rfl
  | cons lines rest ih =>
    obtain ⟨hlines, hrest⟩ := List.forall_mem_cons.mp h
    cases rest with
    | nil =>
      have hlast : textLines "" = [""] := rfl
      simpa [hlast] using textLines_sectionText hlines ""
    | cons next others =>
      have hempty : Unbroken "" := by decide
      have htext : ∀ rest : String, "\n\n" ++ rest = "" ++ "\n" ++ ("" ++ "\n" ++ rest) := fun rest => by
        rw [← String.toList_inj]
        simp
      rw [List.map_cons, List.map_cons, List.map_cons, List.map_cons, String.intercalate_cons_cons,
        List.intercalate_cons_cons, String.append_assoc, textLines_sectionText hlines, htext, textLines_append hempty,
        textLines_append hempty, ← List.map_cons, ih hrest]
      simp

end Document

end StubGen
