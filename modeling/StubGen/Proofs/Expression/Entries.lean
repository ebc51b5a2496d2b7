import StubGen.Proofs.Expression.Rendering

/-!
# The entries of initializer lists

An initializer list with a designator has an entry for each of its elements.  The lemmas here say when `renderEntries`
gives the entries, and which text each of them has.
-/

namespace StubGen.CUnit

open Traced

variable {reduce : Bool} {position : Nat} {rest : List Node} {texts : List String}

/-- The key of an element with a designator: of a path the first part counts. -/
def designatorText (reduce : Bool) (position : Nat) : List Node → Traced String
  | .ident name :: _ => pure ("'" ++ name ++ "'")
  | index :: _ => renderExpr reduce index
  | [] => pure (toString position)

theorem renderEntries_nil : renderEntries reduce position [] = pure [] := rfl

theorem renderEntries_designated {path : List Node} {value : Node} :
    (renderEntries reduce position (.designated path value :: rest)).result = .ok texts ↔
      ∃ key text others, (designatorText reduce position path).result = .ok key ∧
        (renderExpr reduce value).result = .ok text ∧
        (renderEntries reduce (position + 1) rest).result = .ok others ∧ texts = (key ++ ": " ++ text) :: others := by
  have heq : renderEntries reduce position (.designated path value :: rest) = do
      let key ← designatorText reduce position path
      let text ← renderExpr reduce value
      return (key ++ ": " ++ text) :: (← renderEntries reduce (position + 1) rest) := by
    match path with
    | [] => rfl
    | index :: _ => cases index <;> rfl
  rw [heq]
  simp only [bind_eq_ok, pure_result, Except.ok.injEq]
  constructor
  · rintro ⟨key, hkey, text, htext, others, hothers, rfl⟩
    exact ⟨key, text, others, hkey, htext, hothers, rfl⟩
  · rintro ⟨key, text, others, hkey, htext, hothers, rfl⟩
    exact ⟨key, hkey, text, htext, others, hothers, rfl⟩

theorem renderEntries_plain {expr : Node} (h : isDesignated expr = false) :
    (renderEntries reduce position (expr :: rest)).result = .ok texts ↔
      ∃ text others, (renderExpr reduce expr).result = .ok text ∧
        (renderEntries reduce (position + 1) rest).result = .ok others ∧
        texts = (toString position ++ ": " ++ text) :: others := by
  have heq : renderEntries reduce position (expr :: rest) = do
      let text ← renderExpr reduce expr
      return (toString position ++ ": " ++ text) :: (← renderEntries reduce (position + 1) rest) := by
    cases expr <;> first | rfl | cases h
  rw [heq]
  simp only [bind_eq_ok, pure_result, Except.ok.injEq]
  constructor
  · rintro ⟨text, htext, others, hothers, rfl⟩
    exact ⟨text, others, htext, hothers, rfl⟩
  · rintro ⟨text, others, htext, hothers, rfl⟩
    exact ⟨text, htext, others, hothers, rfl⟩

/-- With a designator, a list is written as its entries in braces. -/
theorem renderExpr_designatedList {exprs : List Node} {text : String} (h : exprs.any isDesignated = true) :
    (renderExpr reduce (.initList exprs)).result = .ok text ↔
      ∃ entries, (renderEntries reduce 0 exprs).result = .ok entries ∧
        text = "\x7b" ++ ", ".intercalate entries ++ "\x7d" := by
  rw [renderExpr, if_pos h, bind_eq_ok]
  constructor
  · rintro ⟨entries, hentries, htext⟩
    cases htext
    exact ⟨entries, hentries, rfl⟩
  · rintro ⟨entries, hentries, rfl⟩
    exact ⟨entries, hentries, rfl⟩

end StubGen.CUnit
