import StubGen.CUnit.Error
import StubGen.Layout.Imports

/-!
# Results that need imports

Generating a piece of the output may fail, and it uses imported symbols on the way.  The uses of a failed piece
count too, where its failure is not the end.

* `Traced.use` records one symbol.
* The uses of a sequence are those of its parts, in order, up to the first failure.
-/

namespace StubGen.CUnit

/-- A result or the cause of a failure, with the symbols used up to there. -/
structure Traced (α : Type) where
  uses : List Import
  result : Except GenerateError α

namespace Traced

variable {α β : Type}

instance [Inhabited α] : Inhabited (Traced α) := ⟨⟨[], .ok default⟩⟩

instance : Monad Traced where
  pure value := ⟨[], .ok value⟩
  bind first next :=
    match first.result with
    | .ok value => ⟨first.uses ++ (next value).uses, (next value).result⟩
    | .error cause => ⟨first.uses, .error cause⟩

/-- Fails. -/
def fail (cause : GenerateError) : Traced α := ⟨[], .error cause⟩

/-- Uses a symbol. -/
def use (symbol : Import) : Traced Unit := ⟨[symbol], .ok ()⟩

/-- The result of a piece that may fail, and `fallback` if it does. -/
def orElseValue (piece : Traced α) (fallback : α) : Traced α :=
  ⟨piece.uses, .ok (match piece.result with
    | .ok value => value
    | .error _ => fallback)⟩

@[simp] theorem pure_uses (value : α) : (pure value : Traced α).uses = [] := rfl

@[simp] theorem pure_result (value : α) : (pure value : Traced α).result = .ok value := rfl

@[simp] theorem fail_result (cause : GenerateError) : (fail cause : Traced α).result = .error cause := rfl

theorem bind_result (first : Traced α) (next : α → Traced β) :
    (first >>= next).result = first.result.bind fun value => (next value).result := by
  obtain ⟨uses, result⟩ := first
  cases result <;> rfl

theorem bind_of_ok {first : Traced α} {value : α} (h : first.result = .ok value) (next : α → Traced β) :
    first >>= next = ⟨first.uses ++ (next value).uses, (next value).result⟩ := by
  obtain ⟨uses, result⟩ := first
  subst h
  rfl

theorem bind_eq_ok {first : Traced α} {next : α → Traced β} {value : β} :
    (first >>= next).result = .ok value ↔ ∃ middle, first.result = .ok middle ∧ (next middle).result = .ok value := by
  obtain ⟨uses, result⟩ := first
  cases result with
  | ok middle => simp [bind]
  | error cause => simp [bind]

/-- A piece that passes a check goes on. -/
theorem guard_eq_ok {γ : Type} {c : Prop} [Decidable c] {cause : GenerateError} {skipped : γ → Traced β}
    {next : Traced β} {value : β} :
    (if c then fail cause >>= skipped else next).result = .ok value ↔ ¬c ∧ next.result = .ok value := by
  split
  · simp [bind_eq_ok, *]
  · simp [*]

private theorem id_map' (x : Traced α) : id <$> x = x := by
  obtain ⟨uses, result⟩ := x
  cases result <;> simp [Functor.map]

private theorem bind_assoc' {γ : Type} (x : Traced α) (f : α → Traced β) (g : β → Traced γ) :
    x >>= f >>= g = x >>= fun value => f value >>= g := by
  obtain ⟨uses, result⟩ := x
  cases result with
  | error cause => rfl
  | ok value =>
    simp only [bind]
    cases h : (f value).result <;> simp

instance : LawfulMonad Traced := LawfulMonad.mk' Traced id_map' (fun _ _ => by simp [bind, pure]) bind_assoc'

/-- A list has its first result from its first piece. -/
theorem mapM_cons_eq_ok {f : α → Traced β} {input : α} {rest : List α} {outputs : List β} :
    ((input :: rest).mapM f).result = .ok outputs ↔
      ∃ first others, (f input).result = .ok first ∧ (rest.mapM f).result = .ok others ∧ outputs = first :: others := by
  rw [List.mapM_cons, bind_eq_ok]
  constructor
  · rintro ⟨first, hfirst, h⟩
    obtain ⟨others, hothers, h⟩ := bind_eq_ok.mp h
    cases h
    exact ⟨first, others, hfirst, hothers, rfl⟩
  · rintro ⟨first, others, hfirst, hothers, rfl⟩
    exact ⟨first, hfirst, bind_eq_ok.mpr ⟨others, hothers, rfl⟩⟩

/-- Each of the results of a list comes from one of its pieces. -/
theorem exists_of_mapM_eq_ok {f : α → Traced β} {inputs : List α} {outputs : List β}
    (h : (inputs.mapM f).result = .ok outputs) :
    ∀ output ∈ outputs, ∃ input ∈ inputs, (f input).result = .ok output := by
  induction inputs generalizing outputs with
  | nil =>
    cases h
    simp
  | cons input rest ih =>
    obtain ⟨first, others, hfirst, hothers, rfl⟩ := mapM_cons_eq_ok.mp h
    intro output houtput
    rcases List.mem_cons.mp houtput with rfl | houtput
    · exact ⟨input, List.mem_cons_self .., hfirst⟩
    · obtain ⟨other, hother, hresult⟩ := ih hothers output houtput
      exact ⟨other, List.mem_cons_of_mem input hother, hresult⟩

/-- Each piece of a list gives one of the results. -/
theorem exists_mem_of_mapM_eq_ok {f : α → Traced β} {inputs : List α} {outputs : List β}
    (h : (inputs.mapM f).result = .ok outputs) :
    ∀ input ∈ inputs, ∃ output ∈ outputs, (f input).result = .ok output := by
  induction inputs generalizing outputs with
  | nil => exact List.forall_mem_nil _
  | cons input rest ih =>
    obtain ⟨first, others, hfirst, hothers, rfl⟩ := mapM_cons_eq_ok.mp h
    intro piece hpiece
    rcases List.mem_cons.mp hpiece with rfl | hpiece
    · exact ⟨first, List.mem_cons_self .., hfirst⟩
    · obtain ⟨output, houtput, hresult⟩ := ih hothers piece hpiece
      exact ⟨output, List.mem_cons_of_mem first houtput, hresult⟩

/-- A list has as many results as pieces. -/
theorem length_of_mapM_eq_ok {f : α → Traced β} {inputs : List α} {outputs : List β}
    (h : (inputs.mapM f).result = .ok outputs) : outputs.length = inputs.length := by
  induction inputs generalizing outputs with
  | nil =>
    cases h
    rfl
  | cons input rest ih =>
    obtain ⟨first, others, -, hothers, rfl⟩ := mapM_cons_eq_ok.mp h
    rw [List.length_cons, List.length_cons, ih hothers]

end Traced

end StubGen.CUnit
