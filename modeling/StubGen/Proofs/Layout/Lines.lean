import StubGen.Layout.Code

/-!
# The lines of code

`Code.linesAt` gives the lines of a piece of code at a depth, without an emitter.  Emitting code appends just these
lines and changes nothing else (`Emitter.writeAll_eq`).
-/

namespace StubGen

mutual

/-- The lines of a piece of code at a depth. -/
def Code.linesAt (depth : Nat) : Code → List String
  | .line text => [indented depth text]
  | .blank count => List.replicate count ""
  | .suite header body => indented depth header :: allLinesAt (depth + 1) body
termination_by structural code => code

/-- The lines of pieces of code at a depth. -/
def Code.allLinesAt (depth : Nat) : List Code → List String
  | [] => []
  | code :: rest => code.linesAt depth ++ allLinesAt depth rest
termination_by structural codes => codes

end

theorem Code.allLinesAt_append (depth : Nat) (first second : List Code) :
    Code.allLinesAt depth (first ++ second) = Code.allLinesAt depth first ++ Code.allLinesAt depth second := by
  induction first with
  | nil => rfl
  | cons code rest ih => simp [Code.allLinesAt, ih]

namespace Emitter

/-- The emitter with further lines. -/
def appendLines (emitter : Emitter) (lines : List String) : Emitter :=
  { emitter with lines := emitter.lines ++ lines.toArray }

@[simp] theorem appendLines_nil (emitter : Emitter) : emitter.appendLines [] = emitter := by simp [appendLines]

@[simp] theorem appendLines_append (emitter : Emitter) (first second : List String) :
    (emitter.appendLines first).appendLines second = emitter.appendLines (first ++ second) := by
  simp [appendLines]

@[simp] theorem fragment_appendLines (emitter : Emitter) (lines : List String) :
    (emitter.appendLines lines).fragment = emitter.fragment := rfl

@[simp] theorem depth_appendLines (emitter : Emitter) (lines : List String) :
    (emitter.appendLines lines).depth = emitter.depth := rfl

theorem line_eq {emitter : Emitter} (h : emitter.fragment = none) (text : String) :
    emitter.line text = emitter.appendLines [indented emitter.depth text] := by
  simp [line, flush, h, appendLines]

theorem blank_eq {emitter : Emitter} (h : emitter.fragment = none) (count : Nat) :
    emitter.blank count = emitter.appendLines (List.replicate count "") := by
  simp [blank, flush, h, appendLines]

mutual

/-- Emitting a piece of code appends its lines. -/
theorem write_eq (emitter : Emitter) (h : emitter.fragment = none) (code : Code) :
    emitter.write code = emitter.appendLines (code.linesAt emitter.depth) := by
  match code with
  | .line text => exact line_eq h text
  | .blank count => exact blank_eq h count
  | .suite header body =>
    have hopened : (emitter.line header).indent.fragment = none := by rw [line_eq h]; exact h
    have hbody := writeAll_eq _ hopened body
    rw [write, hbody, line_eq h]
    simp [appendLines, indent, dedent, Code.linesAt]

/-- Emitting pieces of code appends their lines. -/
theorem writeAll_eq (emitter : Emitter) (h : emitter.fragment = none) (codes : List Code) :
    emitter.writeAll codes = emitter.appendLines (Code.allLinesAt emitter.depth codes) := by
  match codes with
  | [] => simp [writeAll, Code.allLinesAt]
  | code :: rest =>
    have hwritten : (emitter.write code).fragment = none := by rw [write_eq emitter h]; exact h
    have hrest := writeAll_eq _ hwritten rest
    rw [writeAll, hrest, write_eq emitter h]
    simp [Code.allLinesAt]

end

end Emitter

/-- The lines of code at the left margin. -/
theorem Code.lines_eq (codes : List Code) : Code.lines codes = Code.allLinesAt 0 codes := by
  rw [Code.lines, Emitter.writeAll_eq _ rfl]
  simp [Emitter.finish, Emitter.flush, Emitter.appendLines, Emitter.empty, Emitter.weave_nil]

end StubGen
