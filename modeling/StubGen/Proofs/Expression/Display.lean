import StubGen.Proofs.Expression.Entries
import StubGen.Proofs.Expression.Integer

/-!
# Displays of initializer lists

An initializer list with designators is written as a display of the host, which holds the last value for each key.
The elements have the same expressions there as in C, but they are not numbered alike: after a designator C goes on
from its number, and the display from the position in the list.

* `Indexed` numbers the elements of a list in one of these ways, `Stores` in C and `Keyed` in the display.
* `exists_keys_of_keyed` gives the keys of the display, and `rel_displayValue?` what it holds under each of them.
* `display_of_stores` compares the two, which agree just for lists whose elements without a designator stand at their
  indices; `displayValue?_afterDesignator` is the shortest list that loses an element.
-/

namespace StubGen.CUnit

open Host Traced

/-! ### Numbers of elements -/

/-- The elements of a list with their numbers, from the number `next` on.  An element with a designator has the number
of the designator, and `resume` says with which number the list goes on after it. -/
inductive Indexed (resume : Nat → Nat → Nat) : Nat → List Node → List (Nat × Node) → Prop
  | nil (next : Nat) : Indexed resume next [] []
  | designated (next : Nat) (type : String) {text : String} {number : Nat} (value : Node) {rest : List Node}
      {numbered : List (Nat × Node)} : IsInteger text.toList number →
      Indexed resume (resume next number) rest numbered →
      Indexed resume next (.designated [.constant type text] value :: rest) ((number, value) :: numbered)
  | plain (next : Nat) {value : Node} {rest : List Node} {numbered : List (Nat × Node)} : isDesignated value = false →
      Indexed resume (next + 1) rest numbered → Indexed resume next (value :: rest) ((next, value) :: numbered)

/-- What a list initializes in C, in order: after a designator it goes on with the next index. -/
abbrev Stores : Nat → List Node → List (Nat × Node) → Prop := Indexed fun _ number => number + 1

/-- What a display has for a list: each element counts, with a designator too. -/
abbrev Keyed : Nat → List Node → List (Nat × Node) → Prop := Indexed fun position _ => position + 1

private theorem forall_getElem?_cons {α : Type} {P : Nat → α → Prop} {first : α} {rest : List α} :
    (∀ index value, (first :: rest)[index]? = some value → P index value) ↔
      P 0 first ∧ ∀ index value, rest[index]? = some value → P (index + 1) value := by
  constructor
  · intro h
    exact ⟨h 0 first rfl, fun index value hvalue => h (index + 1) value hvalue⟩
  · rintro ⟨hfirst, hrest⟩ index value hvalue
    cases index with
    | zero =>
      cases hvalue
      exact hfirst
    | succ index => exact hrest index value hvalue

/-- A list that has numbers in C has some in a display too.  They are the same if and only if the elements without a
designator stand at their indices. -/
private theorem exists_keyed_of_stores {next : Nat} {exprs : List Node} {stores : List (Nat × Node)}
    (h : Stores next exprs stores) (position : Nat) :
    ∃ entries, Keyed position exprs entries ∧ (entries = stores ↔
      ∀ (index : Nat) (value : Node), exprs[index]? = some value → isDesignated value = false →
        stores[index]? = some (position + index, value)) := by
  induction h generalizing position with
  | nil next => exact ⟨[], .nil position, by simp⟩
  | designated next type value hinteger _ ih =>
    obtain ⟨entries, hentries, hiff⟩ := ih (position + 1)
    refine ⟨_, .designated position type value hinteger hentries, ?_⟩
    rw [List.cons_inj_right, hiff, forall_getElem?_cons]
    simp [isDesignated, Nat.add_assoc, Nat.add_comm 1]
  | plain next hplain _ ih =>
    obtain ⟨entries, hentries, hiff⟩ := ih (position + 1)
    refine ⟨_, .plain position hplain hentries, ?_⟩
    rw [List.cons.injEq, hiff, forall_getElem?_cons]
    simp [hplain, Nat.add_assoc, Nat.add_comm 1, @eq_comm Nat next position]

/-! ### Keys -/

/-- The texts of entries. -/
def entryTexts (keys values : List String) : List String :=
  List.zipWith (fun key value => key ++ ": " ++ value) keys values

/-- The display with these keys and values. -/
def displayText (keys values : List String) : String := "\x7b" ++ ", ".intercalate (entryTexts keys values) ++ "\x7d"

/-- The values are texts of the expressions. -/
abbrev ValueTexts (reduce : Bool) : List (Nat × Node) → List String → Prop :=
  List.Forall₂ fun entry value => (renderExpr reduce entry.2).result = .ok value

private theorem valueTexts_cons_iff {reduce : Bool} {key : String} {keys texts : List String} {number : Nat}
    {expr : Node} {entries : List (Nat × Node)} :
    (∃ text others, (renderExpr reduce expr).result = .ok text ∧
      (∃ values, ValueTexts reduce entries values ∧ others = entryTexts keys values) ∧
      texts = (key ++ ": " ++ text) :: others) ↔
    ∃ values, ValueTexts reduce ((number, expr) :: entries) values ∧ texts = entryTexts (key :: keys) values := by
  constructor
  · rintro ⟨text, _, htext, ⟨values, hvalues, rfl⟩, rfl⟩
    exact ⟨text :: values, .cons htext hvalues, rfl⟩
  · rintro ⟨_, hvalues, rfl⟩
    cases hvalues with
    | cons htext hvalues => exact ⟨_, _, htext, ⟨_, hvalues, rfl⟩, rfl⟩

/-- Each element has one key, whatever its expression is written as. -/
private theorem exists_keys_of_keyed {position : Nat} {exprs : List Node} {entries : List (Nat × Node)}
    (h : Keyed position exprs entries) :
    ∃ keys : List String, List.Forall₂ (fun entry key => hostInteger? key.toList = some entry.1) entries keys ∧
      ∀ (reduce : Bool) (texts : List String), (renderEntries reduce position exprs).result = .ok texts ↔
        ∃ values, ValueTexts reduce entries values ∧ texts = entryTexts keys values := by
  induction h with
  | nil position =>
    refine ⟨[], .nil, fun reduce texts => ?_⟩
    simp [renderEntries_nil, entryTexts, eq_comm]
  | designated position type value hinteger _ ih =>
    obtain ⟨keys, hkeys, hiff⟩ := ih
    refine ⟨_, .cons (hostInteger?_literalText type hinteger) hkeys, fun reduce texts => ?_⟩
    rw [renderEntries_designated, ← valueTexts_cons_iff]
    simp only [hiff]
    constructor
    · rintro ⟨key, text, others, hkey, hrest⟩
      cases hkey
      exact ⟨text, others, hrest⟩
    · rintro ⟨text, others, hrest⟩
      exact ⟨_, text, others, rfl, hrest⟩
  | plain position hplain _ ih =>
    obtain ⟨keys, hkeys, hiff⟩ := ih
    refine ⟨toString position :: keys, .cons (hostInteger?_toString position) hkeys, fun reduce texts => ?_⟩
    rw [renderEntries_plain hplain, ← valueTexts_cons_iff]
    simp only [hiff]

/-! ### Values -/

/-- The last value that stands under a key. -/
def lastAt? {κ α : Type} [DecidableEq κ] (key : κ) : List (κ × α) → Option α
  | [] => none
  | (found, value) :: rest => (lastAt? key rest).or (if found = key then some value else none)

/-- The text of the value that a display with these keys and values holds under a number. -/
def displayValue? (keys values : List String) (number : Nat) : Option String :=
  lastAt? (some number) ((keys.map fun key => hostInteger? key.toList).zip values)

private theorem rel_or {α β : Type} {R : α → β → Prop} {first second : Option α} {first' second' : Option β}
    (hfirst : Option.Rel R first first') (hsecond : Option.Rel R second second') :
    Option.Rel R (first.or second) (first'.or second') := by
  cases hfirst with
  | some h => exact .some h
  | none => exact hsecond

/-- Under a number the display holds the text of the last expression that has the number. -/
private theorem rel_displayValue? {reduce : Bool} {entries : List (Nat × Node)} {keys values : List String}
    (hkeys : List.Forall₂ (fun entry key => hostInteger? key.toList = some entry.1) entries keys)
    (hvalues : ValueTexts reduce entries values) (number : Nat) :
    Option.Rel (fun expr value => (renderExpr reduce expr).result = .ok value) (lastAt? number entries)
      (displayValue? keys values number) := by
  induction hkeys generalizing values with
  | nil => exact .none
  | @cons entry key entries keys hkey _ ih =>
    cases hvalues with
    | cons hvalue hvalues =>
      refine rel_or (ih hvalues) ?_
      simp only [hkey, Option.some.injEq]
      split
      · exact .some hvalue
      · exact .none

/-- A list with designators that are integer constants has a display if its expressions have texts.  It holds these
texts under the numbers `entries`, the last one for each number.  The numbers are those of C if and only if each element
without a designator stands at its index. -/
theorem display_of_stores {exprs : List Node} {stores : List (Nat × Node)} (hstores : Stores 0 exprs stores)
    (hdesignated : exprs.any isDesignated = true) :
    ∃ (entries : List (Nat × Node)) (keys : List String), Keyed 0 exprs entries ∧
      List.Forall₂ (fun entry key => hostInteger? key.toList = some entry.1) entries keys ∧
      (∀ (reduce : Bool) (text : String), (renderExpr reduce (.initList exprs)).result = .ok text ↔
        ∃ values, ValueTexts reduce entries values ∧ text = displayText keys values) ∧
      (∀ (reduce : Bool) (values : List String), ValueTexts reduce entries values → ∀ number,
        Option.Rel (fun expr value => (renderExpr reduce expr).result = .ok value) (lastAt? number entries)
          (displayValue? keys values number)) ∧
      (entries = stores ↔ ∀ (index : Nat) (value : Node), exprs[index]? = some value → isDesignated value = false →
        stores[index]? = some (index, value)) := by
  obtain ⟨entries, hentries, hiff⟩ := exists_keyed_of_stores hstores 0
  obtain ⟨keys, hkeys, htexts⟩ := exists_keys_of_keyed hentries
  simp only [Nat.zero_add] at hiff
  refine ⟨entries, keys, hentries, hkeys, fun reduce text => ?_, fun reduce values => rel_displayValue? hkeys, hiff⟩
  rw [renderExpr_designatedList hdesignated]
  simp only [htexts]
  constructor
  · rintro ⟨_, ⟨values, hvalues, rfl⟩, rfl⟩
    exact ⟨values, hvalues, rfl⟩
  · rintro ⟨values, hvalues, rfl⟩
    exact ⟨_, ⟨values, hvalues, rfl⟩, rfl⟩

/-- `{a, [1] = b, c, [0x0u] = d}`. -/
def storedAgain : List Node := [.ident "a", .designated [.constant "int" "1"] (.ident "b"), .ident "c",
  .designated [.constant "unsigned int" "0x0u"] (.ident "d")]

theorem display_storedAgain :
    Stores 0 storedAgain [(0, .ident "a"), (1, .ident "b"), (2, .ident "c"), (0, .ident "d")] ∧
    (renderExpr true (.initList storedAgain)).result = .ok "\x7b0: a, 1: b, 2: c, 0x0: d\x7d" ∧
    ∃ keys values, displayText keys values = "\x7b0: a, 1: b, 2: c, 0x0: d\x7d" ∧
      displayValue? keys values 0 = some "d" ∧ displayValue? keys values 2 = some "c" ∧
      displayValue? keys values 3 = none := by
  have hone : IsInteger "1".toList 1 := isInteger_toString 1
  have hzero : IsInteger "0x0u".toList 0 :=
    ⟨"0x0".toList, "u".toList, by decide, .hexadecimal (by decide) (by decide) (by decide), .inr (by decide)⟩
  have hstores : Stores 0 storedAgain [(0, .ident "a"), (1, .ident "b"), (2, .ident "c"), (0, .ident "d")] :=
    .plain 0 rfl <| .designated 1 "int" _ hone <| .plain 2 rfl <| .designated 3 "unsigned int" _ hzero <| .nil 1
  have htext : (renderExpr true (.initList storedAgain)).result = .ok "\x7b0: a, 1: b, 2: c, 0x0: d\x7d" := rfl
  obtain ⟨entries, keys, -, -, hrender, hvalue, hnumbers⟩ := display_of_stores hstores (by decide)
  have hentries : entries = [(0, .ident "a"), (1, .ident "b"), (2, .ident "c"), (0, .ident "d")] := by
    rw [hnumbers]
    rintro (_ | _ | _ | _ | index) value ⟨⟩ hplain
    · rfl
    · cases hplain
    · rfl
    · cases hplain
  subst hentries
  obtain ⟨values, hvalues, hdisplay⟩ := (hrender true _).mp htext
  have hname : ∀ {name : String} {found : Option String},
      Option.Rel (fun expr value => (renderExpr true expr).result = .ok value) (some (.ident name)) found →
        found = some (escapeName name) := by
    rintro name _ ⟨⟨⟩⟩
    rfl
  have hnone : ∀ {found : Option String},
      Option.Rel (fun expr value => (renderExpr true expr).result = .ok value) none found → found = none := by
    rintro _ ⟨⟩
    rfl
  have hheld := hvalue true values hvalues
  exact ⟨hstores, htext, keys, values, hdisplay.symm, hname (hheld 0), hname (hheld 2), hnone (hheld 3)⟩

/-- `{[1] = a, b}`. -/
def afterDesignator : List Node := [.designated [.constant "int" "1"] (.ident "a"), .ident "b"]

/-- In C the first element has the index 1 and the second the index 2.  In the display both have the key 1, which holds
the second one, and nothing is held under 2. -/
theorem displayValue?_afterDesignator :
    Stores 0 afterDesignator [(1, .ident "a"), (2, .ident "b")] ∧
    (renderExpr true (.initList afterDesignator)).result = .ok "\x7b1: a, 1: b\x7d" ∧
    displayText ["1", "1"] ["a", "b"] = "\x7b1: a, 1: b\x7d" ∧
    displayValue? ["1", "1"] ["a", "b"] 1 = some "b" ∧ displayValue? ["1", "1"] ["a", "b"] 2 = none := by
  have hone : IsInteger "1".toList 1 := isInteger_toString 1
  exact ⟨.designated 0 "int" _ hone <| .plain 2 rfl <| .nil 3, rfl, rfl, by decide, by decide⟩

end StubGen.CUnit
