import StubGen.CUnit.Traced
import StubGen.Layout.Emitter

/-!
# Emissions

An emission writes lines to an emitter and symbols to an import table, and may fail.  What it wrote before it failed
stays written.

* `Emission.indent` and `Emission.dedent` open and close a level of indentation; `Emission.block` does both around the
  body of a suite.
* `Emission.orPass` writes `pass` where a body wrote no line.
* A `Traced` result is used in an emission as it is: its symbols are added to the table.
-/

namespace StubGen.CUnit

/-- What has been written. -/
structure Output where
  emitter : Emitter
  imports : Imports
  /-- Whether a level was closed at the left margin, where none is open. -/
  overrun : Bool
  deriving Inhabited

namespace Output

/-- Nothing has been written. -/
def start : Output := ⟨.empty, .empty, false⟩

/-- Adds symbols to the import table. -/
def use (output : Output) (uses : List Import) : Output :=
  { output with imports := uses.foldl Imports.add output.imports }

end Output

/-- A computation that writes output and may fail. -/
abbrev Emission (α : Type) : Type := ExceptT GenerateError (StateM Output) α

namespace Emission

variable {α : Type}

/-- The result of an emission, and the output after it. -/
def exec (emission : Emission α) (output : Output) : Except GenerateError α × Output :=
  Id.run (StateT.run (ExceptT.run emission) output)

/-- Adds the symbols that a result uses.  A failed result makes the emission fail. -/
def trace (piece : Traced α) : Emission α := ExceptT.mk fun output => (piece.result, output.use piece.uses)

instance : MonadLift Traced (ExceptT GenerateError (StateM Output)) where
  monadLift := trace

/-- Writes a line at the current depth. -/
def line (text : String) : Emission Unit := modify fun output => { output with emitter := output.emitter.line text }

/-- Writes empty lines. -/
def blank (count : Nat) : Emission Unit := modify fun output => { output with emitter := output.emitter.blank count }

/-- Opens a level. -/
def indent : Emission Unit := modify fun output => { output with emitter := output.emitter.indent }

/-- Closes a level.  There is none at the left margin. -/
def dedent : Emission Unit := modify fun output =>
  { output with emitter := output.emitter.dedent, overrun := output.overrun || output.emitter.depth == 0 }

/-- The number of lines written. -/
def size : Emission Nat := return (← get).emitter.size

/-- Writes `pass` if the body writes no line. -/
def orPass (body : Emission Unit) : Emission Unit := do
  let before ← size
  body
  if (← size) = before then line "pass"

/-- Writes the body of a suite, a level deeper than its header. -/
def block (body : Emission Unit) : Emission Unit := do
  indent
  orPass body
  dedent

end Emission

end StubGen.CUnit
