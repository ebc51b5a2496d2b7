import Mathlib.Data.List.Chain
import StubGen.Proofs.Layout.Lines
import StubGen.Proofs.Suite.Shape

/-!
# Rows

The rows of code are its lines before its depth is known: a row has a level of its own, and `Row.atDepth` puts it at a
depth.

* `Code.allLinesAt_eq`: the lines of code at a depth are its rows, put there.
* `Row.NestedAt` says that the level grows only after a header, and by one.  Rows that do so can be put one after the
  other (`NestedAt.append`) and below a header (`NestedAt.suite`).
-/

namespace StubGen

/-- A line whose depth is yet to come. -/
inductive Row where
  | blank
  | text (level : Nat) (content : String)
  deriving DecidableEq, Repr

namespace Row

/-- The line that a row is at a depth.  A blank row has no indentation anywhere. -/
def atDepth (depth : Nat) : Row → String
  | .blank => ""
  | .text level content => indented (depth + level) content

/-- The level and the text of a row that is not blank. -/
def shown? : Row → Option (Nat × String)
  | .blank => none
  | .text level content => some (level, content)

/-- What a row may be followed by: a row that is not deeper, and after a header also one that is a level deeper. -/
def MayFollow (first second : Nat × String) : Prop :=
  second.1 ≤ first.1 ∨ second.1 = first.1 + 1 ∧ isSuiteHeader first.2.toList = true

/-- Blank rows aside, the first row has level 0, and each of the others may follow the one before it. -/
def WellIndented (rows : List Row) : Prop :=
  (∀ first ∈ (rows.filterMap shown?).head?, first.1 = 0) ∧ (rows.filterMap shown?).IsChain MayFollow

end Row

mutual

/-- The rows of a piece of code at a level. -/
def Code.rowsAt (level : Nat) : Code → List Row
  | .line text => [.text level text]
  | .blank count => List.replicate count .blank
  | .suite header body => .text level header :: allRowsAt (level + 1) body
termination_by structural code => code

/-- The rows of pieces of code at a level. -/
def Code.allRowsAt (level : Nat) : List Code → List Row
  | [] => []
  | code :: rest => code.rowsAt level ++ allRowsAt level rest
termination_by structural codes => codes

end

/-- The rows of code. -/
def Code.rows (codes : List Code) : List Row := Code.allRowsAt 0 codes

mutual

private theorem linesAt_eq (depth level : Nat) (code : Code) :
    code.linesAt (depth + level) = (code.rowsAt level).map (Row.atDepth depth) := by
  match code with
  | .line text => rfl
  | .blank count => simp [Code.linesAt, Code.rowsAt, Row.atDepth]
  | .suite header body =>
    have hbody := Code.allLinesAt_add depth (level + 1) body
    rw [Code.linesAt, Nat.add_assoc, hbody]
    rfl

/-- The lines of code at a level further in than a depth. -/
theorem Code.allLinesAt_add (depth level : Nat) (codes : List Code) :
    Code.allLinesAt (depth + level) codes = (Code.allRowsAt level codes).map (Row.atDepth depth) := by
  match codes with
  | [] => rfl
  | code :: rest =>
    rw [Code.allLinesAt, Code.allRowsAt, List.map_append, linesAt_eq depth level code,
      Code.allLinesAt_add depth level rest]

end

/-- The lines of code at a depth are its rows there. -/
theorem Code.allLinesAt_eq (depth : Nat) (codes : List Code) :
    Code.allLinesAt depth codes = (Code.rows codes).map (Row.atDepth depth) :=
  Code.allLinesAt_add depth 0 codes

theorem Code.allRowsAt_append (level : Nat) (first second : List Code) :
    Code.allRowsAt level (first ++ second) = Code.allRowsAt level first ++ Code.allRowsAt level second := by
  induction first with
  | nil => rfl
  | cons code rest ih => simp [Code.allRowsAt, ih]

namespace Row

/-- Blank rows aside, the first row has the level, none is less deep, and each of the others may follow the one before
it. -/
structure NestedAt (level : Nat) (rows : List Row) : Prop where
  head : ∀ first ∈ (rows.filterMap shown?).head?, first.1 = level
  deep : ∀ row ∈ rows.filterMap shown?, level ≤ row.1
  chain : (rows.filterMap shown?).IsChain MayFollow

namespace NestedAt

variable {level : Nat} {first second rows : List Row}

theorem nil (level : Nat) : NestedAt level [] := ⟨by simp, by simp, .nil⟩

theorem line (level : Nat) (text : String) : NestedAt level [.text level text] :=
  ⟨by simp [shown?], by simp [shown?], .singleton _⟩

theorem blank (level count : Nat) : NestedAt level (List.replicate count .blank) := by
  have hshown : (List.replicate count Row.blank).filterMap shown? = [] := by simp [shown?]
  constructor <;> simp [hshown]

theorem append (hfirst : NestedAt level first) (hsecond : NestedAt level second) :
    NestedAt level (first ++ second) := by
  constructor <;> rw [List.filterMap_append]
  · intro row hrow
    rw [List.head?_append, Option.mem_def, Option.or_eq_some_iff] at hrow
    rcases hrow with hrow | ⟨-, hrow⟩
    · exact hfirst.head row hrow
    · exact hsecond.head row hrow
  · exact List.forall_mem_append.mpr ⟨hfirst.deep, hsecond.deep⟩
  · refine List.isChain_append.mpr ⟨hfirst.chain, hsecond.chain, fun last hlast row hrow => Or.inl ?_⟩
    rw [hsecond.head row hrow]
    exact hfirst.deep last (List.mem_of_getLast? hlast)

/-- The rows of a suite are a level deeper than its header. -/
theorem suite {header : String} (hheader : isSuiteHeader header.toList = true) (h : NestedAt (level + 1) rows) :
    NestedAt level (.text level header :: rows) := by
  have hshown : (Row.text level header :: rows).filterMap shown? = (level, header) :: rows.filterMap shown? := rfl
  constructor <;> rw [hshown]
  · simp
  · exact List.forall_mem_cons.mpr ⟨le_rfl, fun row hrow => (Nat.le_succ level).trans (h.deep row hrow)⟩
  · exact List.isChain_cons.mpr ⟨fun row hrow => Or.inr ⟨h.head row hrow, hheader⟩, h.chain⟩

theorem wellIndented (h : NestedAt 0 rows) : WellIndented rows := ⟨h.head, h.chain⟩

end NestedAt

end Row

end StubGen
