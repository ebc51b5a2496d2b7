import StubGen.CUnit.Statement
import StubGen.Proofs.Definition.Numbering

/-!
# What is made of integer constants

The output decides branches, moves the bounds of ranges and numbers enumerators by the value of a constant, and prints
the constant itself by its text.  The two are read apart from each other.

* `writeIf_constant`, `evaluate_rangeBound_constant` and `evaluate_nextEnumerated_constant` say what comes of a constant
  of C in each of these places.
* `evaluate_literalText_agrees` puts them beside the number of the constant's text.
-/

namespace StubGen.CUnit

open Host Traced

variable {type value : String} {n : Nat}

/-- The code of a branch with a test. -/
def testedBranch (after : Bool) (test : String) (whenTrue : Traced (List Code))
    (whenFalse : Bool → Traced (List Code)) : Traced (List Code) := do
  let body ← whenTrue
  let rest ← whenFalse true
  return .suite ((if after then "elif " else "if ") ++ test ++ ":") (Code.orPass body) :: rest

/-- A constant that has a value for the output decides its branch, and any other stands in the test. -/
theorem writeIf_constant (htype : containsPart "int".toList type.toList = true) (h : IsInteger value.toList n)
    (reduce after : Bool) (whenTrue : Traced (List Code)) (whenFalse : Bool → Traced (List Code)) :
    writeIf reduce after (.constant type value) whenTrue whenFalse =
      if IsInt64 n then if n ≠ 0 then elseCode after <$> whenTrue else whenFalse after
      else testedBranch after (literalText type value) whenTrue whenFalse := by
  rw [writeIf, intValue?_of_isInteger htype h, int64?]
  by_cases hfits : IsInt64 n
  · simp only [if_pos hfits, ne_eq, Int.natCast_eq_zero]
    rfl
  · simp only [if_neg hfits]
    rfl

/-- A bound that is a constant is moved to the number next to it. -/
theorem evaluate_rangeBound_constant (h : IsInteger value.toList n) (evaluation : Evaluation)
    (names : String → Option Int) (reduce : Bool) (direction : Direction) (inclusive : Bool) :
    ∃ text, (renderExpr reduce (rangeBound direction inclusive (.constant type value))).result = .ok text ∧
      evaluation.evaluate names text = some (direction.stop inclusive n) := by
  obtain ⟨text, htext⟩ : ∃ text,
      (renderExpr reduce (rangeBound direction inclusive (.constant type value))).result = .ok text := by
    unfold rangeBound
    split
    · exact ⟨_, rfl⟩
    · split <;> exact ⟨_, rfl⟩
  obtain ⟨level, expr, hspells, hmeaning⟩ :=
    exists_spells_rangeBound (isGenuine_constant type h) rfl (spells_literal type h) htext
  have hnumber := (evaluation.laws names).literal (hostInteger?_literalText type h)
  exact ⟨text, htext, (evaluation.evaluate_read names hspells.readExpr).trans
    (hmeaning (evaluation.laws names) hnumber)⟩

/-- After a member whose value is a constant, the next one has the number that follows. -/
theorem evaluate_nextEnumerated_constant (type : String) (h : IsInteger value.toList n) (evaluation : Evaluation)
    {names : String → Option Int} {member : String} (hmember : IsIdentifier member)
    (hnumber : names (escapeName member) = some (n : Int)) :
    evaluation.evaluate names
      (nextEnumerated (some ⟨escapeName member, (Node.constant type value).intValue?⟩)).1 = some (n + 1 : Int) := by
  have htracked : ∀ tracked, (Node.constant type value).intValue? = some tracked → tracked = n ∧ 0 ≤ tracked := by
    intro tracked htracked
    have hvalue : IsValue evaluation true names (.constant type value) n := .constant type h
    exact hvalue.tracked (isGenuine_constant type h) htracked
  exact evaluate_nextEnumerated (isIdentifier_escapeName hmember) (escapeName_notMem member) hnumber htracked

/-- A constant of an integer type is printed as one literal of the host, and this literal has the number of the
constant.  The output knows the same number if it fits 64 bits, and else none; so the branches that it decides, the
bounds that it moves and the enumerators that it numbers are those of the literal. -/
theorem evaluate_literalText_agrees (htype : containsPart "int".toList type.toList = true)
    (h : IsInteger value.toList n) :
    readExpr (literalText type value) = some (.literal (literalText type value)) ∧
    hostInteger? (literalText type value).toList = some n ∧
    (Node.constant type value).intValue? = (if IsInt64 n then some (n : Int) else none) ∧
    (∀ (reduce after : Bool) (whenTrue : Traced (List Code)) (whenFalse : Bool → Traced (List Code)),
      (renderExpr reduce (.constant type value)).result = .ok (literalText type value) ∧
      writeIf reduce after (.constant type value) whenTrue whenFalse =
        if IsInt64 n then if n ≠ 0 then elseCode after <$> whenTrue else whenFalse after
        else testedBranch after (literalText type value) whenTrue whenFalse) ∧
    ∀ (evaluation : Evaluation) (names : String → Option Int),
      evaluation.evaluate names (literalText type value) = some (n : Int) ∧
      (∀ (reduce : Bool) (direction : Direction) (inclusive : Bool),
        ∃ text, (renderExpr reduce (rangeBound direction inclusive (.constant type value))).result = .ok text ∧
          evaluation.evaluate names text = some (direction.stop inclusive n)) ∧
      ∀ member, IsIdentifier member → names (escapeName member) = some (n : Int) →
        evaluation.evaluate names
          (nextEnumerated (some ⟨escapeName member, (Node.constant type value).intValue?⟩)).1 = some (n + 1 : Int) := by
  have hread := (spells_literal type h).readExpr
  have hliteral := hostInteger?_literalText type h
  refine ⟨hread, hliteral, intValue?_of_isInteger htype h, fun reduce after whenTrue whenFalse =>
    ⟨rfl, writeIf_constant htype h reduce after whenTrue whenFalse⟩, fun evaluation names => ⟨?_, ?_, ?_⟩⟩
  · rw [evaluation.evaluate_read names hread]
    exact (evaluation.laws names).literal hliteral
  · exact evaluate_rangeBound_constant h evaluation names
  · exact fun member => evaluate_nextEnumerated_constant type h evaluation

/-- The largest number that fits, as octal digits with a suffix. -/
theorem evaluate_literalText_octalLimit :
    (Node.constant "unsigned long int" "0777777777777777777777LU").intValue? = some 9223372036854775807 ∧
    (renderExpr true (.constant "unsigned long int" "0777777777777777777777LU")).result =
      .ok "0o777777777777777777777" ∧
    (renderExpr true (rangeBound .up true (.constant "unsigned long int" "0777777777777777777777LU"))).result =
      .ok "0o777777777777777777777 + 1" ∧
    ∀ (evaluation : Evaluation) (names : String → Option Int),
      evaluation.evaluate names "0o777777777777777777777" = some 9223372036854775807 ∧
      evaluation.evaluate names "0o777777777777777777777 + 1" = some 9223372036854775808 := by
  have hinteger : IsInteger "0777777777777777777777LU".toList 9223372036854775807 :=
    ⟨"0777777777777777777777".toList, "LU".toList, by decide, .octal (by decide +kernel), .inr (by decide)⟩
  have htype : containsPart "int".toList "unsigned long int".toList = true := by decide
  have hbound : (renderExpr true (rangeBound .up true
      (.constant "unsigned long int" "0777777777777777777777LU"))).result = .ok "0o777777777777777777777 + 1" := rfl
  obtain ⟨-, -, hvalue, hbranch, hevaluate⟩ := evaluate_literalText_agrees htype hinteger
  have htext : literalText "unsigned long int" "0777777777777777777777LU" = "0o777777777777777777777" := by decide
  rw [htext] at hbranch hevaluate
  refine ⟨hvalue, (hbranch true false (pure []) fun _ => pure []).1, hbound, fun evaluation names => ?_⟩
  obtain ⟨hliteral, hmoved, -⟩ := hevaluate evaluation names
  obtain ⟨text, hrender, hnumber⟩ := hmoved true .up true
  rw [hbound] at hrender
  cases hrender
  exact ⟨hliteral, hnumber⟩

end StubGen.CUnit
