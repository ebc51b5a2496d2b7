import StubGen.Layout.Emitter

/-!
# Nested code

Code is a list of lines, blank lines and suites.  A suite is a header line with the code that belongs to it, one
level deeper, so nesting is a matter of the tree and not of counting blanks.
-/

namespace StubGen

/-- A piece of code. -/
inductive Code where
  | line (text : String)
  | blank (count : Nat)
  | suite (header : String) (body : List Code)
  deriving Inhabited

mutual

/-- Emits a piece of code at the current depth. -/
def Emitter.write (emitter : Emitter) : Code → Emitter
  | .line text => emitter.line text
  | .blank count => emitter.blank count
  | .suite header body => (writeAll (emitter.line header).indent body).dedent
termination_by structural code => code

/-- Emits pieces of code one after the other. -/
def Emitter.writeAll (emitter : Emitter) : List Code → Emitter
  | [] => emitter
  | code :: rest => writeAll (emitter.write code) rest
termination_by structural codes => codes

end

theorem Emitter.writeAll_append (emitter : Emitter) (first second : List Code) :
    emitter.writeAll (first ++ second) = (emitter.writeAll first).writeAll second := by
  induction first generalizing emitter with
  | nil => rfl
  | cons code rest ih => exact ih (emitter.write code)

/-- The lines of code that stands at the left margin. -/
def Code.lines (codes : List Code) : List String := (Emitter.empty.writeAll codes).finish

/-- Code for the body of a suite, where something has to stand. -/
def Code.orPass (body : List Code) : List Code := if body.isEmpty then [.line "pass"] else body

theorem Code.orPass_ne_nil (body : List Code) : Code.orPass body ≠ [] := by
  unfold Code.orPass
  split <;> simp_all

end StubGen
