import StubGen.Proofs.Emission.Trail

/-!
# Emission of code

An emission `Emits` a piece of code if it leaves the rows of the code and ends at the level at which it began, or fails
for the cause for which the piece fails.  The rules follow the ways in which code is put together.

* `Emits.trace` is for a text that code is made of, `Emits.append` for code after code.
* `Emits.suite` opens a level below a header and closes it behind the body; `Emits.block` fills the body.
-/

namespace StubGen.CUnit

open Emission

/-- What an emission of a piece of code does from a level on.  On the way to a failure, too, the rows are nested. -/
inductive EmitsAt (level : Nat) (emission : Emission Unit) : TracedCode → Prop
  | done {code : List Code} {uses : List Import} : (Code.allRowsAt level code = [] → code = []) →
      Row.NestedAt level (Code.allRowsAt level code) →
      Leaves emission level ⟨.ok (), Code.allRowsAt level code, level, uses⟩ → EmitsAt level emission ⟨uses, .ok code⟩
  | failed {cause : GenerateError} {rows : List Row} {stop : Nat} {uses : List Import} : Row.NestedAt level rows →
      Leaves emission level ⟨.error cause, rows, stop, uses⟩ → EmitsAt level emission ⟨uses, .error cause⟩

/-- The emission writes the code of the piece. -/
structure Emits (emission : Emission Unit) (piece : TracedCode) : Prop where
  emitsAt : ∀ level, EmitsAt level emission piece

namespace Emits

variable {α : Type} {first second body : Emission Unit} {piece other : TracedCode}

theorem pure : Emits (pure ()) (pure []) :=
  ⟨fun level => .done (fun _ => rfl) (.nil level) (.pure level ())⟩

theorem line (text : String) : Emits (line text) (Pure.pure [.line text]) :=
  ⟨fun level => .done (fun h => by cases h) (.line level text) (.line level text)⟩

theorem blank (count : Nat) : Emits (blank (count + 1)) (Pure.pure [.blank (count + 1)]) := by
  refine ⟨fun level => ?_⟩
  have hrows : Code.allRowsAt level [.blank (count + 1)] = List.replicate (count + 1) .blank := by
    simp [Code.allRowsAt, Code.rowsAt]
  refine .done (fun h => ?_) ?_ ?_
  · rw [hrows] at h
    cases h
  · rw [hrows]
    exact .blank level (count + 1)
  · rw [hrows]
    exact .blank level (count + 1)

theorem throw (cause : GenerateError) : Emits (throw cause) (.fail cause) :=
  ⟨fun level => .failed (.nil level) (.throw level cause)⟩

theorem fail {β : Type} (cause : GenerateError) (next : α → Emission Unit) (code : β → TracedCode) :
    Emits (liftM (Traced.fail cause : Traced α) >>= next) (.fail cause >>= code) :=
  ⟨fun level => .failed (.nil level) ((Leaves.trace level (.fail cause)).bind_error next)⟩

/-- A text comes before the code that is made of it. -/
theorem trace {text : Traced α} {next : α → Emission Unit} {code : α → TracedCode}
    (h : ∀ value, text.result = .ok value → Emits (next value) (code value)) :
    Emits (liftM text >>= next) (text >>= code) := by
  refine ⟨fun level => ?_⟩
  obtain ⟨uses, result⟩ := text
  cases result with
  | error cause => exact .failed (.nil level) ((Leaves.trace level _).bind_error next)
  | ok value =>
    have hrest := (h value rfl).emitsAt level
    have htext := Leaves.trace level (⟨uses, .ok value⟩ : Traced α)
    change EmitsAt level _ ⟨uses ++ (code value).uses, (code value).result⟩
    cases hcode : code value with
    | mk others result =>
      rw [hcode] at hrest
      cases hrest with
      | done hshown hnested hleaves => exact .done hshown hnested (htext.bind hleaves)
      | failed hnested hleaves => exact .failed hnested (htext.bind hleaves)

/-- Code after code. -/
theorem append (hfirst : Emits first piece) (hsecond : Emits second other) :
    Emits (do first; second) (do return (← piece) ++ (← other)) := by
  refine ⟨fun level => ?_⟩
  cases hfirst.emitsAt level with
  | failed hnested hleaves => exact .failed hnested (hleaves.bind_error _)
  | @done code uses hshown hnested hleaves =>
    cases hsecond.emitsAt level with
    | @failed cause rows stop others hmore hrest => exact .failed (hnested.append hmore) (hleaves.bind hrest)
    | @done rest others hmore hnestedRest hrest =>
      have hrows := Code.allRowsAt_append level code rest
      change EmitsAt level _ ⟨uses ++ (others ++ []), .ok (code ++ rest)⟩
      rw [List.append_nil]
      refine .done (fun h => ?_) ?_ ?_
      · rw [hrows, List.append_eq_nil_iff] at h
        rw [hshown h.1, hmore h.2]
        rfl
      · rw [hrows]
        exact hnested.append hnestedRest
      · rw [hrows]
        exact hleaves.bind hrest

/-- A suite opens a level for its body and closes it. -/
theorem suite {header : String} (hheader : isSuiteHeader header.toList = true) (h : Emits body piece) :
    Emits (do Emission.line header; indent; body; dedent) (do return [.suite header (← piece)]) := by
  refine ⟨fun level => ?_⟩
  have hopen := Leaves.line level header
  cases h.emitsAt (level + 1) with
  | failed hnested hleaves =>
    exact .failed (hnested.suite hheader) (hopen.bind ((Leaves.indent level).bind (hleaves.bind_error _)))
  | @done code uses hshown hnested hleaves =>
    have hrows : Code.allRowsAt level [.suite header code] =
        .text level header :: Code.allRowsAt (level + 1) code := by simp [Code.allRowsAt, Code.rowsAt]
    have hclosed : Leaves (do Emission.line header; indent; body; dedent) level _ :=
      hopen.bind ((Leaves.indent level).bind (hleaves.bind (Leaves.dedent level)))
    refine .done (fun h => ?_) ?_ ?_
    · rw [hrows] at h
      cases h
    · rw [hrows]
      exact hnested.suite hheader
    · rw [hrows]
      simpa using hclosed

/-- A body without code has `pass` in it. -/
theorem orPass (h : Emits body piece) : Emits (orPass body) (do return Code.orPass (← piece)) := by
  refine ⟨fun level => ?_⟩
  cases h.emitsAt level with
  | failed hnested hleaves => exact .failed hnested hleaves.orPass_error
  | @done code uses hshown hnested hleaves =>
    have hfilled := hleaves.orPass
    change EmitsAt level _ ⟨uses ++ [], .ok (Code.orPass code)⟩
    rw [List.append_nil]
    cases code with
    | nil => exact .done (fun h => by cases h) (.line level "pass") hfilled
    | cons first rest =>
      rw [if_neg fun h => by cases hshown h] at hfilled
      exact .done hshown hnested hfilled

/-- A suite with a body that may be without code. -/
theorem block {header : String} (hheader : isSuiteHeader header.toList = true) (h : Emits body piece) :
    Emits (do Emission.line header; Emission.block body) (do return [.suite header (Code.orPass (← piece))]) := by
  have hsuite := h.orPass.suite hheader
  simp only [bind_assoc, pure_bind] at hsuite
  exact hsuite

/-- A piece of code before code. -/
theorem cons {one : Traced Code} (hfirst : Emits first (do return [← one])) (hsecond : Emits second other) :
    Emits (do first; second) (do return (← one) :: (← other)) := by
  have happend := hfirst.append hsecond
  simp only [bind_assoc, pure_bind, List.singleton_append] at happend
  exact happend

theorem forM {inputs : List α} {emit : α → Emission Unit} {write : α → TracedCode}
    (h : ∀ input ∈ inputs, Emits (emit input) (write input)) :
    Emits (inputs.forM emit) (do return (← inputs.mapM write).flatten) := by
  induction inputs with
  | nil => exact pure
  | cons input rest ih =>
    have hrest := ih fun other hother => h other (List.mem_cons_of_mem _ hother)
    have happend := (h input (List.mem_cons_self ..)).append hrest
    simp only [bind_assoc, pure_bind] at happend
    simp only [List.mapM_cons, bind_assoc, pure_bind, List.flatten_cons]
    exact happend

/-- Inputs that give a piece of code each. -/
theorem forM_single {inputs : List α} {emit : α → Emission Unit} {write : α → Traced Code}
    (h : ∀ input ∈ inputs, Emits (emit input) (do return [← write input])) :
    Emits (inputs.forM emit) (inputs.mapM write) := by
  induction inputs with
  | nil => exact pure
  | cons input rest ih =>
    rw [List.mapM_cons]
    exact (h input (List.mem_cons_self ..)).cons (ih fun other hother => h other (List.mem_cons_of_mem _ hother))

/-- What does not pass a check is not written. -/
theorem guard {γ : Type} {c : Prop} [Decidable c] {cause : GenerateError} {skipped : PUnit → Emission Unit}
    {otherwise : γ → TracedCode} (h : ¬c → Emits body piece) :
    Emits (if c then MonadExcept.throw cause >>= skipped else body)
      (if c then .fail cause >>= otherwise else piece) := by
  split
  · exact ⟨fun level => .failed (.nil level) ((Leaves.throw level cause).bind_error skipped)⟩
  · exact h ‹_›

end Emits

end StubGen.CUnit
