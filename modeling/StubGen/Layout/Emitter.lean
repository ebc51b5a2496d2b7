/-!
# Emitters

An emitter collects lines at a depth of indentation.  It may hold one open fragment, a line whose end is yet to
come, and lines that are scheduled to stand before a line emitted later.

* `Emitter.finish` gives the lines with the scheduled ones in their places.
* An `Anchor` is the position of the next line; what is scheduled for it precedes that line.
-/

namespace StubGen

/-- The blanks of one level. -/
def indentUnit : String := "    "

/-- A line at a depth. -/
def indented (depth : Nat) (text : String) : String :=
  String.join (List.replicate depth indentUnit) ++ text

/-- The position of a line: the number of lines before it. -/
structure Anchor where
  position : Nat
  deriving DecidableEq, Repr, Inhabited

/-- Lines in the making. -/
structure Emitter where
  lines : Array String
  fragment : Option String
  depth : Nat
  /-- The scheduled lines with their positions, in the order of scheduling. -/
  scheduled : Array (Nat × String)
  deriving Repr

namespace Emitter

def empty : Emitter := ⟨#[], none, 0, #[]⟩

instance : Inhabited Emitter := ⟨empty⟩

def indent (emitter : Emitter) : Emitter := { emitter with depth := emitter.depth + 1 }

def dedent (emitter : Emitter) : Emitter := { emitter with depth := emitter.depth - 1 }

/-- Ends the open fragment. -/
def flush (emitter : Emitter) : Emitter :=
  match emitter.fragment with
  | some text => { emitter with lines := emitter.lines.push text, fragment := none }
  | none => emitter

/-- Emits a line at the current depth. -/
def line (emitter : Emitter) (text : String) : Emitter :=
  let emitter := emitter.flush
  { emitter with lines := emitter.lines.push (indented emitter.depth text) }

/-- Adds to the open fragment, or opens one at the current depth. -/
def push (emitter : Emitter) (text : String) : Emitter :=
  let opened := emitter.fragment.getD (indented emitter.depth "")
  { emitter with fragment := some (opened ++ text) }

/-- Emits empty lines, without indentation. -/
def blank (emitter : Emitter) (count : Nat) : Emitter :=
  let emitter := emitter.flush
  { emitter with lines := emitter.lines ++ Array.replicate count "" }

/-- The number of lines so far, the open fragment included. -/
def size (emitter : Emitter) : Nat := emitter.lines.size + if emitter.fragment.isSome then 1 else 0

def isEmpty (emitter : Emitter) : Bool := emitter.size = 0

/-- The position of the next line; the open fragment ends. -/
def anchor (emitter : Emitter) : Anchor × Emitter :=
  let emitter := emitter.flush
  (⟨emitter.lines.size⟩, emitter)

/-- Schedules a line, at the current depth, to stand before the line at an anchor. -/
def insertBefore (emitter : Emitter) (anchor : Anchor) (text : String) : Emitter :=
  { emitter with scheduled := emitter.scheduled.push (anchor.position, indented emitter.depth text) }

/-- The lines from `position` on, each after the lines scheduled for it.  What is scheduled for no line comes
last. -/
def weave (scheduled : List (Nat × String)) : Nat → List String → List String
  | position, [] => (scheduled.filter fun entry => position ≤ entry.1).map Prod.snd
  | position, text :: rest =>
    (scheduled.filter fun entry => entry.1 = position).map Prod.snd ++ text :: weave scheduled (position + 1) rest

/-- All lines, the scheduled ones in their places. -/
def finish (emitter : Emitter) : List String :=
  let emitter := emitter.flush
  weave emitter.scheduled.toList 0 emitter.lines.toList

theorem weave_nil (position : Nat) (lines : List String) : weave [] position lines = lines := by
  induction lines generalizing position with
  | nil => rfl
  | cons text rest ih => simp [weave, ih]

end Emitter

end StubGen
