import StubGen.DeclFile.Overload
import StubGen.Generated
import StubGen.Layout.Imports

/-!
# Generating with a log

Generating stubs never fails.  On the way it uses symbols, defines types for those that have no name, and reports
what has no form in the output; all that goes into a `Log`.

* A piece depends on the number of types defined before it, and on nothing else that came before.
* `Stubs.synthesize` defines the next type.
-/

namespace StubGen.DeclFile

/-- A type that is defined because it has no name: its number, and the class that it becomes. -/
structure Block where
  number : Nat
  decl : ClassCode

/-- What comes about beside the text: symbols used, types defined, and reports. -/
structure Log where
  uses : List Import
  blocks : List Block
  diagnostics : List Diagnostic

namespace Log

def empty : Log := ⟨[], [], []⟩

/-- One log after the other. -/
def append (first second : Log) : Log :=
  ⟨first.uses ++ second.uses, first.blocks ++ second.blocks, first.diagnostics ++ second.diagnostics⟩

instance : Append Log := ⟨append⟩

instance : Inhabited Log := ⟨empty⟩

@[simp] theorem empty_append (log : Log) : empty ++ log = log := rfl

@[simp] theorem append_empty (log : Log) : log ++ empty = log := by
  show append log empty = log
  simp [append, empty]

theorem append_assoc (a b c : Log) : a ++ b ++ c = a ++ (b ++ c) := by
  show append (append a b) c = append a (append b c)
  simp [append]

@[simp] theorem blocks_empty : empty.blocks = [] := rfl

@[simp] theorem blocks_append (a b : Log) : (a ++ b).blocks = a.blocks ++ b.blocks := rfl

@[simp] theorem uses_append (a b : Log) : (a ++ b).uses = a.uses ++ b.uses := rfl

@[simp] theorem diagnostics_append (a b : Log) : (a ++ b).diagnostics = a.diagnostics ++ b.diagnostics := rfl

end Log

/-- A piece of the output, given the number of types defined before it. -/
def Stubs (α : Type) := Nat → Log × α

namespace Stubs

variable {α β : Type}

instance : Monad Stubs where
  pure value := fun _ => (.empty, value)
  bind first next := fun count =>
    let (log, value) := first count
    let (more, result) := next value (count + log.blocks.length)
    (log ++ more, result)

/-- Uses a symbol. -/
def use (symbol : Import) : Stubs Unit := fun _ => (⟨[symbol], [], []⟩, ())

/-- Reports a node of this kind. -/
def report (kind message : String) : Stubs Unit := fun _ => (⟨[], [], [⟨kind, message⟩]⟩, ())

/-- Defines the next type.  It is named by its number; the types that its own class defines come before it. -/
def synthesize (typeName : Nat → String) (decl : String → Stubs ClassCode) : Stubs String := fun count =>
  let name := typeName (count + 1)
  let (log, code) := decl name (count + 1)
  (log ++ ⟨[], [⟨count + 1, code⟩], []⟩, name)

theorem pure_apply (value : α) (count : Nat) : (pure value : Stubs α) count = (.empty, value) := rfl

theorem bind_apply (first : Stubs α) (next : α → Stubs β) (count : Nat) :
    (first >>= next) count =
      ((first count).1 ++ (next (first count).2 (count + (first count).1.blocks.length)).1,
        (next (first count).2 (count + (first count).1.blocks.length)).2) := rfl

theorem map_apply (f : α → β) (piece : Stubs α) (count : Nat) :
    (f <$> piece) count = ((piece count).1, f (piece count).2) := by
  show ((piece count).1 ++ Log.empty, f (piece count).2) = _
  rw [Log.append_empty]

private theorem id_map_stubs (x : Stubs α) : id <$> x = x := by
  funext count
  show ((x count).1 ++ Log.empty, (x count).2) = x count
  simp

private theorem pure_bind_stubs (value : α) (next : α → Stubs β) : pure value >>= next = next value := by
  funext count
  rw [bind_apply]
  simp [pure_apply, Log.empty]
  rfl

private theorem bind_assoc_stubs {γ : Type} (x : Stubs α) (f : α → Stubs β) (g : β → Stubs γ) :
    x >>= f >>= g = x >>= fun value => f value >>= g := by
  funext count
  simp only [bind_apply, Log.append_assoc, Log.blocks_append, List.length_append, Nat.add_assoc]

instance : LawfulMonad Stubs := LawfulMonad.mk' Stubs id_map_stubs pure_bind_stubs bind_assoc_stubs

end Stubs

end StubGen.DeclFile
