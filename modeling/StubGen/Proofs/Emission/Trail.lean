import StubGen.CUnit.Emission
import StubGen.CUnit.Switch
import StubGen.Proofs.Layout.Rows

/-!
# Trails of emissions

A `Trail` is what an emission does apart from where it does it: how it ends, the rows it adds, the level at which it
leaves off, and the symbols it uses.  An emission `Leaves` a trail if it does the same from every output without an
open fragment.

* One rule for each step: `Leaves.line`, `Leaves.blank`, `Leaves.indent`, `Leaves.dedent` and `Leaves.trace`.  Only a
  level that is open can be closed.
* `Leaves.bind` puts trails together, and `Leaves.bind_error` ends them at a failure.
* `Leaves.orPass` looks at the number of rows and not at that of lines.
-/

namespace StubGen.CUnit

/-- What an emission does from a level on. -/
structure Trail (α : Type) where
  result : Except GenerateError α
  rows : List Row
  /-- The level after the last step. -/
  stop : Nat
  uses : List Import

/-- The output after a trail.  Level 0 of the trail is at a depth. -/
def Output.follow {α : Type} (output : Output) (depth : Nat) (trail : Trail α) : Output where
  emitter := { output.emitter.appendLines (trail.rows.map (Row.atDepth depth)) with depth := depth + trail.stop }
  imports := trail.uses.foldl Imports.add output.imports
  overrun := output.overrun

namespace Emission

variable {α β : Type} {level middle stop : Nat} {rows more : List Row} {uses others : List Import}

/-- From every output without an open fragment, the emission does what the trail says. -/
def Leaves (emission : Emission α) (level : Nat) (trail : Trail α) : Prop :=
  ∀ (depth : Nat) (output : Output), output.emitter.fragment = none → output.emitter.depth = depth + level →
    emission.exec output = (trail.result, output.follow depth trail)

theorem exec_bind (emission : Emission α) (next : α → Emission β) (output : Output) :
    (emission >>= next).exec output =
      match emission.exec output with
      | (.ok value, after) => (next value).exec after
      | (.error cause, after) => (.error cause, after) := by
  simp only [exec, ExceptT.run_bind, StateT.run_bind]
  rcases (ExceptT.run emission).run output with ⟨result, after⟩
  cases result <;> rfl

theorem liftM_pure (value : α) : (liftM (pure value : Traced α) : Emission α) = pure value := rfl

/-- A result that is made of others is used as they are, one after the other. -/
theorem liftM_bind (piece : Traced α) (next : α → Traced β) :
    (liftM (piece >>= next) : Emission β) = liftM piece >>= fun value => liftM (next value) := by
  obtain ⟨uses, result⟩ := piece
  cases result with
  | error cause => rfl
  | ok value =>
    funext output
    have huse : output.use (uses ++ (next value).uses) = (output.use uses).use (next value).uses := by
      simp [Output.use]
    change ((next value).result, output.use (uses ++ (next value).uses)) = _
    rw [huse]
    rfl

namespace Leaves

variable {result : Except GenerateError β}

theorem pure (level : Nat) (value : α) : Leaves (pure value : Emission α) level ⟨.ok value, [], level, []⟩ := by
  intro depth output _ hdepth
  simp [Output.follow, ← hdepth]
  rfl

theorem throw (level : Nat) (cause : GenerateError) :
    Leaves (throw cause : Emission α) level ⟨.error cause, [], level, []⟩ := by
  intro depth output _ hdepth
  simp [Output.follow, ← hdepth]
  rfl

theorem trace (level : Nat) (piece : Traced α) :
    Leaves (liftM piece : Emission α) level ⟨piece.result, [], level, piece.uses⟩ := by
  intro depth output _ hdepth
  simp [Output.follow, ← hdepth]
  rfl

theorem line (level : Nat) (text : String) :
    Leaves (line text) level ⟨.ok (), [.text level text], level, []⟩ := by
  intro depth output hclosed hdepth
  have hline : output.emitter.line text = output.emitter.appendLines [indented output.emitter.depth text] :=
    Emitter.line_eq hclosed text
  change (_, { output with emitter := output.emitter.line text }) = _
  rw [hline, hdepth]
  simp [Output.follow, Row.atDepth, Emitter.appendLines, hdepth]

theorem blank (level count : Nat) :
    Leaves (blank count) level ⟨.ok (), List.replicate count .blank, level, []⟩ := by
  intro depth output hclosed hdepth
  have hblank : output.emitter.blank count = output.emitter.appendLines (List.replicate count "") :=
    Emitter.blank_eq hclosed count
  change (_, { output with emitter := output.emitter.blank count }) = _
  rw [hblank]
  simp [Output.follow, Row.atDepth, Emitter.appendLines, hdepth]

theorem indent (level : Nat) : Leaves indent level ⟨.ok (), [], level + 1, []⟩ := by
  intro depth output _ hdepth
  change (_, { output with emitter := output.emitter.indent }) = _
  simp [Output.follow, Emitter.indent, hdepth, Nat.add_assoc]

/-- A level that is open is not the left margin. -/
theorem dedent (level : Nat) : Leaves dedent (level + 1) ⟨.ok (), [], level, []⟩ := by
  intro depth output _ hdepth
  have hopen : (output.emitter.depth == 0) = false := by simp [hdepth]
  change (_, { output with
    emitter := output.emitter.dedent, overrun := output.overrun || output.emitter.depth == 0 }) = _
  rw [hopen]
  simp [Output.follow, Emitter.dedent, hdepth, ← Nat.add_assoc]

/-- A step goes on where the one before it left off. -/
theorem bind {emission : Emission α} {next : α → Emission β} {value : α}
    (h : Leaves emission level ⟨.ok value, rows, middle, uses⟩)
    (hnext : Leaves (next value) middle ⟨result, more, stop, others⟩) :
    Leaves (emission >>= next) level ⟨result, rows ++ more, stop, uses ++ others⟩ := by
  intro depth output hclosed hdepth
  rw [exec_bind, h depth output hclosed hdepth]
  let trail : Trail α := ⟨.ok value, rows, middle, uses⟩
  have hrest := hnext depth (output.follow depth trail) hclosed rfl
  refine hrest.trans ?_
  simp [trail, Output.follow, Emitter.appendLines]

/-- Nothing follows a failure. -/
theorem bind_error {emission : Emission α} (next : α → Emission β) {cause : GenerateError}
    (h : Leaves emission level ⟨.error cause, rows, stop, uses⟩) :
    Leaves (emission >>= next) level ⟨.error cause, rows, stop, uses⟩ := by
  intro depth output hclosed hdepth
  rw [exec_bind, h depth output hclosed hdepth]
  rfl

private theorem exec_size (output : Output) : size.exec output = (.ok output.emitter.size, output) := rfl

private theorem size_follow {output : Output} (hclosed : output.emitter.fragment = none) (depth : Nat)
    (trail : Trail α) : (output.follow depth trail).emitter.size = output.emitter.size + trail.rows.length := by
  simp [Output.follow, Emitter.size, Emitter.appendLines, hclosed]

/-- A body has written no line just if it has no rows. -/
theorem orPass {body : Emission Unit} (h : Leaves body level ⟨.ok (), rows, level, uses⟩) :
    Leaves (Emission.orPass body) level ⟨.ok (), if rows = [] then [.text level "pass"] else rows, level, uses⟩ := by
  have hfill : Leaves (if rows = [] then Emission.line "pass" else Pure.pure ()) level
      ⟨.ok (), if rows = [] then [.text level "pass"] else [], level, []⟩ := by
    split
    · exact line level "pass"
    · exact pure level ()
  have hrows : rows ++ (if rows = [] then [.text level "pass"] else []) =
      if rows = [] then [.text level "pass"] else rows := by
    split <;> simp [*]
  intro depth output hclosed hdepth
  let trail : Trail Unit := ⟨.ok (), rows, level, uses⟩
  have hbody : body.exec output = (.ok (), output.follow depth trail) := h depth output hclosed hdepth
  have hempty : (output.follow depth trail).emitter.size = output.emitter.size ↔ rows = [] := by
    simp [size_follow hclosed, trail]
  have hboth : Leaves (body >>= fun _ => if rows = [] then Emission.line "pass" else Pure.pure ()) level _ :=
    h.bind hfill
  have hfilled := hboth depth output hclosed hdepth
  rw [hrows, List.append_nil, exec_bind, hbody] at hfilled
  rw [Emission.orPass, exec_bind, exec_size]
  change (body >>= fun _ => size >>= fun after =>
    if after = output.emitter.size then Emission.line "pass" else Pure.pure ()).exec output = _
  rw [exec_bind, hbody]
  change (if (output.follow depth trail).emitter.size = output.emitter.size then Emission.line "pass"
    else Pure.pure ()).exec (output.follow depth trail) = _
  rw [if_congr hempty rfl rfl]
  exact hfilled

theorem orPass_error {body : Emission Unit} {cause : GenerateError}
    (h : Leaves body level ⟨.error cause, rows, stop, uses⟩) :
    Leaves (Emission.orPass body) level ⟨.error cause, rows, stop, uses⟩ := by
  intro depth output hclosed hdepth
  rw [Emission.orPass, exec_bind, exec_size]
  change (body >>= _).exec output = _
  rw [exec_bind, h depth output hclosed hdepth]

end Leaves

end Emission

end StubGen.CUnit
