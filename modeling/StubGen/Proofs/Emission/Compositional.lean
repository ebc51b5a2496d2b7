import StubGen.Proofs.Emission.Writers

/-!
# Emission is compositional

What an emission does to an output does not depend on the output: it ends alike everywhere, and adds the same rows at
the depth of the output (`Emission.IsUniform`).

* `compositional_emission` says so of all statements and of the items of a unit, and takes a unit apart into its items.
-/

namespace StubGen

namespace Imports

/-- A table after something has been added to it: its modules come first, and the symbols of each stand before new
ones. -/
inductive Extended : List (String × List String) → List (String × List String) → Prop
  | nil (added : List (String × List String)) : Extended [] added
  | cons (module : String) {old new : List String} {before after : List (String × List String)} : old <+: new →
      Extended before after → Extended ((module, old) :: before) ((module, new) :: after)

/-- The first table is the start of the second. -/
def Grows (before after : Imports) : Prop := Extended before.modules after.modules

namespace Grows

theorem refl (imports : Imports) : imports.Grows imports := by
  obtain ⟨modules⟩ := imports
  change Extended modules modules
  induction modules with
  | nil => exact .nil []
  | cons entry rest ih => exact .cons entry.1 (List.prefix_refl _) ih

private theorem extended_trans {first second third : List (String × List String)} (h : Extended first second)
    (h' : Extended second third) : Extended first third := by
  induction h generalizing third with
  | nil => exact .nil third
  | cons module hsymbols _ ih =>
    cases h' with
    | cons _ hmore hrest => exact .cons module (hsymbols.trans hmore) (ih hrest)

theorem trans {first second third : Imports} (h : first.Grows second) (h' : second.Grows third) :
    first.Grows third := extended_trans h h'

theorem add (imports : Imports) (use : Import) : imports.Grows (imports.add use) := by
  obtain ⟨modules⟩ := imports
  change Extended modules (addTo use modules)
  induction modules with
  | nil => exact .nil _
  | cons entry rest ih =>
    obtain ⟨module, symbols⟩ := entry
    unfold addTo
    split
    · refine .cons module ?_ (refl ⟨rest⟩)
      split
      · exact List.prefix_refl symbols
      · exact List.prefix_append symbols _
    · exact .cons module (List.prefix_refl symbols) ih

theorem foldl_add (uses : List Import) (imports : Imports) : imports.Grows (uses.foldl Imports.add imports) := by
  induction uses generalizing imports with
  | nil => exact refl imports
  | cons use rest ih => exact (add imports use).trans (ih (imports.add use))

end Grows

end Imports

namespace CUnit

open Traced

/-- The emission does alike with all outputs without an open fragment.  Its rows, well indented among themselves, follow
the lines so far at the depth of the output.  If it does not fail, the emitter is back at that depth; on the way it has
not been told to leave the left margin. -/
def Emission.IsUniform (emission : Emission Unit) : Prop :=
  ∃ (result : Except GenerateError Unit) (rows : List Row) (stop : Nat),
    Row.WellIndented rows ∧ (result = .ok () → stop = 0) ∧
      ∀ output : Output, output.emitter.fragment = none → ∃ after, emission.exec output = (result, after) ∧
        after.emitter = { output.emitter.appendLines (rows.map (Row.atDepth output.emitter.depth)) with
          depth := output.emitter.depth + stop } ∧
        output.imports.Grows after.imports ∧ after.overrun = output.overrun

private theorem Emits.isUniform {emission : Emission Unit} {piece : TracedCode} (h : Emits emission piece) :
    emission.IsUniform := by
  cases h.emitsAt 0 with
  | @done code uses _ hnested hleaves =>
    refine ⟨.ok (), Code.allRowsAt 0 code, 0, hnested.wellIndented, fun _ => rfl, fun output hclosed => ?_⟩
    exact ⟨_, hleaves output.emitter.depth output hclosed rfl, rfl, .foldl_add uses output.imports, rfl⟩
  | @failed cause rows stop uses hnested hleaves =>
    refine ⟨.error cause, rows, stop, hnested.wellIndented, nofun, fun output hclosed => ?_⟩
    exact ⟨_, hleaves output.emitter.depth output hclosed rfl, rfl, .foldl_add uses output.imports, rfl⟩

/-- The items of a unit are emitted one part after the other. -/
private theorem emitExternals_append (options : UnitOptions) (first second : List Node) :
    emitExternals options (first ++ second) =
      (do emitExternals options first; emitExternals options second) := List.forM_append

/-- The lines of the code of a unit. -/
def blockOf (options : UnitOptions) (items : List Node) : Except GenerateError (List String) :=
  (generate options (.unit items)).map fun document => document.blocks.flatten

private theorem blockOf_eq (options : UnitOptions) (items : List Node) :
    blockOf options items = (writeExternals options items).result.map (Code.allLinesAt 0) := by
  rw [blockOf, generate_eq, writeUnit]
  cases (writeExternals options items).result with
  | error cause => rfl
  | ok code => simp [Except.map, Code.lines_eq]

private theorem blockOf_cons (options : UnitOptions) (item : Node) (rest : List Node) :
    blockOf options (item :: rest) = do
      let first ← (writeExternal options .outermost item).result.map (Code.allLinesAt 0)
      let others ← blockOf options rest
      return first ++ others := by
  rw [blockOf_eq, blockOf_eq, writeExternals, bind_result]
  cases (writeExternal options .outermost item).result with
  | error cause => rfl
  | ok code =>
    simp only [Except.bind, bind_result]
    cases (writeExternals options rest).result with
    | error cause => rfl
    | ok codes => exact congrArg Except.ok (Code.allLinesAt_append 0 code codes)

/-- The block of items is that of the first ones and that of the others, and fails as the first of them that does. -/
private theorem blockOf_append (options : UnitOptions) (first second : List Node) :
    blockOf options (first ++ second) = do return (← blockOf options first) ++ (← blockOf options second) := by
  induction first with
  | nil =>
    change blockOf options second = (blockOf options second).bind Except.ok
    cases blockOf options second <;> rfl
  | cons item rest ih =>
    rw [List.cons_append, blockOf_cons, blockOf_cons, ih]
    simp only [bind_assoc, pure_bind, List.append_assoc]

/-- Emission is compositional.  A statement and an item of a unit are emitted alike wherever they are, the items of a
unit are emitted one part after the other, and the block of a unit is made of the blocks of its parts. -/
theorem compositional_emission (options : UnitOptions) :
    (∀ context after stmt, (emitStmt options context after stmt).IsUniform) ∧
      (∀ context item, (emitExternal options context item).IsUniform) ∧
      (∀ first second, emitExternals options (first ++ second) =
        do emitExternals options first; emitExternals options second) ∧
      ∀ first second, blockOf options (first ++ second) =
        do return (← blockOf options first) ++ (← blockOf options second) :=
  ⟨fun context after stmt => (emits_stmt context after stmt).isUniform,
    fun context item => (emits_external options context item).isUniform, emitExternals_append options,
    blockOf_append options⟩

end CUnit

end StubGen
