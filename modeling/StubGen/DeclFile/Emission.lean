import StubGen.DeclFile.Stubs
import StubGen.Layout.Emitter

/-!
# Emissions

An emission writes lines to an emitter, symbols to an import table and reports to a list.  It never fails.

* `Emission.declare` takes the anchor of a declaration that can be overloaded, and `Emission.finishOverloads` schedules
  the decorators of a scope for the anchors in it.
* `Emission.synthesize` writes a type that has no name.  While it does so, another emitter stands in the place of the
  one at hand.
-/

namespace StubGen.DeclFile

/-- What has been written. -/
structure Output where
  /-- The lines of the body, or those of the type that is being written. -/
  emitter : Emitter
  imports : Imports
  /-- The lines of the types that are finished. -/
  blocks : List (List String)
  /-- How many types got a name so far. -/
  counter : Nat
  diagnostics : List Diagnostic
  deriving Inhabited

/-- Nothing has been written. -/
def Output.start : Output := ⟨.empty, .empty, [], 0, []⟩

/-- The declarations of a scope that can be overloaded: each emitted name, in the order of first declaration, with the
anchors of its declarations. -/
abbrev OverloadScope : Type := List (String × List Anchor)

/-- Adds a declaration. -/
def OverloadScope.push (name : String) (anchor : Anchor) : OverloadScope → OverloadScope
  | [] => [(name, [anchor])]
  | (other, anchors) :: rest =>
    if other = name then (other, anchors ++ [anchor]) :: rest else (other, anchors) :: push name anchor rest

/-- The decorator of an overload, by its number among those of its name: the first one begins the dispatch, and the
later ones register with it. -/
def overloadText (dispatch name : String) (index : Nat) : String :=
  if index = 0 then "@" ++ dispatch else "@" ++ name ++ ".register"

/-- A computation that writes output. -/
abbrev Emission (α : Type) : Type := StateM Output α

namespace Emission

variable {α : Type}

/-- The result of an emission, and the output after it. -/
def exec (emission : Emission α) (output : Output) : α × Output := Id.run (StateT.run emission output)

/-- Adds the symbols that a piece uses to the table, and its reports to the list.  Such a piece defines no types. -/
def note (piece : Stubs α) : Emission α := do
  let (log, value) := piece (← get).counter
  modify fun output => { output with
    imports := log.uses.foldl Imports.add output.imports
    diagnostics := output.diagnostics ++ log.diagnostics }
  return value

instance : MonadLift Stubs (StateM Output) where
  monadLift := note

/-- Writes a line at the current depth. -/
def line (text : String) : Emission Unit := modify fun output => { output with emitter := output.emitter.line text }

/-- Writes empty lines. -/
def blank (count : Nat) : Emission Unit := modify fun output => { output with emitter := output.emitter.blank count }

/-- Opens a level. -/
def indent : Emission Unit := modify fun output => { output with emitter := output.emitter.indent }

/-- Closes a level. -/
def dedent : Emission Unit := modify fun output => { output with emitter := output.emitter.dedent }

/-- The anchor of the next line. -/
def anchor : Emission Anchor := modifyGet fun output =>
  (output.emitter.anchor.1, { output with emitter := output.emitter.anchor.2 })

/-- Schedules a line for an anchor. -/
def insertBefore (anchor : Anchor) (text : String) : Emission Unit :=
  modify fun output => { output with emitter := output.emitter.insertBefore anchor text }

/-- Puts an emitter in the place of the one at hand, which is the result. -/
def swap (emitter : Emitter) : Emission Emitter := modifyGet fun output => (output.emitter, { output with emitter })

/-- Takes the next number for a type. -/
def nextNumber : Emission Nat := modifyGet fun output =>
  (output.counter + 1, { output with counter := output.counter + 1 })

/-- Adds the lines of a type. -/
def addBlock (lines : List String) : Emission Unit :=
  modify fun output => { output with blocks := output.blocks ++ [lines] }

/-- Declares a name in a scope, at the next line. -/
def declare (scope : OverloadScope) (name : String) : Emission OverloadScope := return scope.push name (← anchor)

/-- Schedules the decorators of the declarations of a name. -/
def decorate (dispatch name : String) (anchors : List Anchor) : Emission Unit :=
  anchors.zipIdx.forM fun (anchor, index) => insertBefore anchor (overloadText dispatch name index)

/-- Schedules the decorators of a scope, for the names that are declared more than once. -/
def finishOverloads (dispatch : String) (scope : OverloadScope) : Emission Unit :=
  scope.forM fun (name, anchors) => do
    if 2 ≤ anchors.length then
      Stubs.use ⟨"functools", dispatch⟩
      decorate dispatch name anchors

/-- Writes the next type to an emitter of its own.  The types that its body defines come before it. -/
def synthesize (typeName : Nat → String) (body : String → Emission Unit) : Emission String := do
  let name := typeName (← nextNumber)
  let outer ← swap .empty
  body name
  let inner ← swap outer
  addBlock inner.finish
  return name

end Emission

end StubGen.DeclFile
