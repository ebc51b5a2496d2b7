import StubGen.DeclFile.Emission
import StubGen.Proofs.Layout.Lines
import StubGen.Proofs.Stub.Scope

/-!
# Anchors of declarations

The scope of overloads keeps an anchor for each declaration, and at its end the decorators are scheduled for these
anchors.

* `OverloadScope.Is` says which anchors a scope has for a name.
* `decorators_at`: if the anchors of a scope are the positions of the rows that open its declarations, then what is
  scheduled for a position is what grouping inserts ahead of the row there.
-/

namespace StubGen.DeclFile

/-! ### Scopes by name -/

namespace OverloadScope

/-- The scope has these anchors for each name. -/
def Is (anchors : String → List Anchor) (scope : OverloadScope) : Prop :=
  ∃ names : List String, names.Nodup ∧ scope = names.map (fun name => (name, anchors name)) ∧
    ∀ name, name ∈ names ↔ anchors name ≠ []

/-- The anchors with one more for a name. -/
def added (name : String) (anchor : Anchor) (anchors : String → List Anchor) (other : String) : List Anchor :=
  if other = name then anchors other ++ [anchor] else anchors other

theorem is_nil {anchors : String → List Anchor} (h : ∀ name, anchors name = []) : Is anchors [] :=
  ⟨[], List.nodup_nil, rfl, by simp [h]⟩

theorem Is.congr {anchors others : String → List Anchor} {scope : OverloadScope} (h : Is anchors scope)
    (heq : ∀ name, anchors name = others name) : Is others scope := by rwa [← funext heq]

private theorem push_map (name : String) (anchor : Anchor) (anchors : String → List Anchor) {names : List String}
    (h : names.Nodup) : push name anchor (names.map fun name => (name, anchors name)) =
      names.map (fun other => (other, added name anchor anchors other)) ++
        if name ∈ names then [] else [(name, [anchor])] := by
  induction names with
  | nil => rfl
  | cons first rest ih =>
    obtain ⟨hfirst, hrest⟩ := List.nodup_cons.mp h
    rw [List.map_cons, push]
    by_cases heq : first = name
    · subst heq
      have hothers : ∀ other ∈ rest, other ≠ first := fun other hother heq => hfirst (heq ▸ hother)
      simpa [added] using hothers
    · rw [if_neg heq, ih hrest]
      simp [added, heq, Ne.symm heq]

/-- Declaring a name adds to the anchors of that name, and to no others. -/
theorem Is.push {anchors : String → List Anchor} {scope : OverloadScope} (h : Is anchors scope) (name : String)
    (anchor : Anchor) : Is (added name anchor anchors) (scope.push name anchor) := by
  obtain ⟨names, hnodup, rfl, hmem⟩ := h
  have hadded : ∀ other, added name anchor anchors other ≠ [] ↔ other = name ∨ anchors other ≠ [] := by
    intro other
    unfold added
    split <;> simp_all
  rw [push_map name anchor anchors hnodup]
  by_cases hname : name ∈ names
  · refine ⟨names, hnodup, by simp [hname], fun other => ?_⟩
    rw [hadded, ← hmem]
    constructor
    · exact Or.inr
    · rintro (rfl | hother)
      · exact hname
      · exact hother
  · refine ⟨names ++ [name], ?_, ?_, fun other => ?_⟩
    · refine List.nodup_append.mpr ⟨hnodup, by simp, fun other hother last hlast heq => hname ?_⟩
      rwa [← List.mem_singleton.mp hlast, ← heq]
    · have hnone : anchors name = [] := by simpa [hmem] using hname
      simp [hname, added, hnone]
    · rw [hadded, ← hmem, List.mem_append, List.mem_singleton, Or.comm]

/-- The decorators of a name with their anchors. -/
def decoratorsOf (dispatch name : String) (anchors : List Anchor) : List (Anchor × String) :=
  if 2 ≤ anchors.length then anchors.zipIdx.map fun entry => (entry.1, overloadText dispatch name entry.2) else []

/-- The decorators of a scope with their anchors, in the order in which they are scheduled. -/
def decorators (dispatch : String) (scope : OverloadScope) : List (Anchor × String) :=
  scope.flatMap fun entry => decoratorsOf dispatch entry.1 entry.2

end OverloadScope

/-! ### Positions of declarations -/

namespace ScopeRow

/-- The anchors of the rows that open a declaration, if the first row stands at a position. -/
def anchorsFrom (opening : Opening) (position : Nat) : List ScopeRow → List Anchor
  | [] => []
  | row :: rest =>
    if row.opening = some opening then ⟨position⟩ :: anchorsFrom opening (position + 1) rest
    else anchorsFrom opening (position + 1) rest

variable {opening : Opening} {rows : List ScopeRow}

theorem anchorsFrom_append (opening : Opening) (position : Nat) (first second : List ScopeRow) :
    anchorsFrom opening position (first ++ second) =
      anchorsFrom opening position first ++ anchorsFrom opening (position + first.length) second := by
  induction first generalizing position with
  | nil => rfl
  | cons row rest ih =>
    have hposition : position + 1 + rest.length = position + (row :: rest).length := by
      rw [List.length_cons]
      omega
    rw [List.cons_append, anchorsFrom, anchorsFrom, ih, hposition]
    split <;> rfl

theorem anchorsFrom_of_unopened (h : ∀ row ∈ rows, row.opening ≠ some opening) (position : Nat) :
    anchorsFrom opening position rows = [] := by
  induction rows generalizing position with
  | nil => rfl
  | cons row rest ih =>
    obtain ⟨hrow, hrest⟩ := List.forall_mem_cons.mp h
    rw [anchorsFrom, if_neg hrow, ih hrest]

theorem length_anchorsFrom (opening : Opening) (position : Nat) (rows : List ScopeRow) :
    (anchorsFrom opening position rows).length = countOf opening rows := by
  induction rows generalizing position with
  | nil => rfl
  | cons row rest ih =>
    rw [anchorsFrom, countOf, List.countP_cons, ← countOf, ← ih (position + 1)]
    split <;> simp [*]

theorem le_of_mem_anchorsFrom {position : Nat} {anchor : Anchor} (h : anchor ∈ anchorsFrom opening position rows) :
    position ≤ anchor.position := by
  induction rows generalizing position with
  | nil => cases h
  | cons row rest ih =>
    have hrest : anchor ∈ anchorsFrom opening (position + 1) rest → position ≤ anchor.position :=
      fun hmem => (Nat.le_succ position).trans (ih hmem)
    rw [anchorsFrom] at h
    split at h
    · rcases List.mem_cons.mp h with rfl | hmem
      · exact le_rfl
      · exact hrest hmem
    · exact hrest h

/-- Of the anchors of a declaration, one is at a position if the row there opens it, and it is numbered by the rows
before that do so, too. -/
theorem filter_anchorsFrom (opening : Opening) (rows : List ScopeRow) (position number index : Nat) :
    ((anchorsFrom opening position rows).zipIdx number).filter (fun entry => entry.1.position = position + index) =
      if rows[index]?.bind ScopeRow.opening = some opening then
        [(⟨position + index⟩, number + countOf opening (rows.take index))]
      else [] := by
  induction rows generalizing position number index with
  | nil => rfl
  | cons row rest ih =>
    have hlater : ∀ number, ((anchorsFrom opening (position + 1) rest).zipIdx number).filter
        (fun entry => entry.1.position = position) = [] := by
      intro number
      rw [List.filter_eq_nil_iff]
      intro entry hentry
      have hle := le_of_mem_anchorsFrom (List.fst_mem_of_mem_zipIdx hentry)
      simpa using (by omega : entry.1.position ≠ position)
    cases index with
    | zero =>
      by_cases hrow : row.opening = some opening <;> simp [anchorsFrom, hrow, hlater, countOf]
    | succ index =>
      have hposition : position + (index + 1) = position + 1 + index := by omega
      rw [anchorsFrom, hposition]
      split
      · next hrow =>
        rw [List.zipIdx_cons, List.filter_cons, if_neg (by simp; omega), ih]
        simp [countOf, hrow, Nat.add_assoc, Nat.add_comm 1]
      · next hrow =>
        rw [ih]
        simp [countOf, hrow]

/-- The decorator of a row that opens a declaration, given all rows and those before it. -/
def decorator? (all before : List ScopeRow) (opening : Opening) : Option String :=
  if countOf opening all < 2 then none
  else some (overloadText opening.dispatch opening.name (countOf opening before))

theorem inserted?_text (all before : List ScopeRow) (level : Nat) (text : String) (opening : Opening) :
    inserted? all before ⟨.text level text, some opening⟩ = (decorator? all before opening).map (Row.text level) := by
  simp only [inserted?, decorator?, overloadText]
  split
  · rfl
  · split <;> rfl

end ScopeRow

open ScopeRow

namespace OverloadScope

variable {number : Nat} {dispatch : String} {rows : List ScopeRow}

private theorem flatMap_eq_of_nodup {names : List String} {name : String} {f : String → List String}
    (hnodup : names.Nodup) (hname : name ∈ names) (hothers : ∀ other, other ≠ name → f other = []) :
    names.flatMap f = f name := by
  induction names with
  | nil => cases hname
  | cons first rest ih =>
    obtain ⟨hfirst, hrest⟩ := List.nodup_cons.mp hnodup
    rw [List.flatMap_cons]
    rcases List.mem_cons.mp hname with rfl | hname
    · have hnone : rest.flatMap f = [] := List.flatMap_eq_nil_iff.mpr fun other hother =>
        hothers other fun heq => hfirst (heq ▸ hother)
      rw [hnone, List.append_nil]
    · rw [ih hrest hname, hothers first fun heq => hfirst (heq ▸ hname), List.nil_append]

/-- Of a name, at most one decorator is scheduled for a position: that of the row there, if it opens the name. -/
private theorem decoratorsOf_at (name : String) (position : Nat) :
    ((decoratorsOf dispatch name (anchorsFrom ⟨number, dispatch, name⟩ 0 rows)).filter fun entry =>
      entry.1.position = position).map Prod.snd =
        if rows[position]?.bind ScopeRow.opening = some ⟨number, dispatch, name⟩ then
          (decorator? rows (rows.take position) ⟨number, dispatch, name⟩).toList
        else [] := by
  have hfilter := filter_anchorsFrom ⟨number, dispatch, name⟩ rows 0 0 position
  rw [Nat.zero_add, Nat.zero_add] at hfilter
  rw [decoratorsOf, length_anchorsFrom, decorator?]
  by_cases hcount : 2 ≤ countOf ⟨number, dispatch, name⟩ rows
  · rw [if_pos hcount, if_neg (Nat.not_lt.mpr hcount), List.filter_map, List.map_map]
    have hcomp : ((fun entry : Anchor × String => decide (entry.1.position = position)) ∘
        fun entry : Anchor × Nat => (entry.1, overloadText dispatch name entry.2)) =
          fun entry => decide (entry.1.position = position) := rfl
    rw [hcomp, hfilter]
    split <;> rfl
  · rw [if_neg hcount, if_pos (Nat.not_le.mp hcount)]
    simp

/-- What a scope schedules for a position is the decorator of the row there, if the row opens something in it. -/
theorem Is.decorators_at {scope : OverloadScope} (h : scope.Is fun name => anchorsFrom ⟨number, dispatch, name⟩ 0 rows)
    (position : Nat) :
    ((scope.decorators dispatch).filter fun entry => entry.1.position = position).map Prod.snd =
      (((rows[position]?.bind ScopeRow.opening).filter fun opening =>
        opening.scope = number ∧ opening.dispatch = dispatch).bind (decorator? rows (rows.take position))).toList := by
  obtain ⟨names, hnodup, rfl, hmem⟩ := h
  rw [decorators, List.flatMap_map, List.filter_flatMap, List.map_flatMap]
  simp only [decoratorsOf_at]
  cases hopening : rows[position]?.bind ScopeRow.opening with
  | none => simp
  | some opening =>
    obtain ⟨scope, found, name⟩ := opening
    by_cases heq : scope = number ∧ found = dispatch
    · obtain ⟨rfl, rfl⟩ := heq
      have hname : name ∈ names := by
        obtain ⟨row, hrow, hopened⟩ := Option.bind_eq_some_iff.mp hopening
        have hcount : 0 < countOf ⟨scope, found, name⟩ rows :=
          List.countP_pos_iff.mpr ⟨row, List.mem_of_getElem? hrow, by simpa using hopened⟩
        rw [hmem, ← List.length_pos_iff, length_anchorsFrom]
        exact hcount
      rw [flatMap_eq_of_nodup hnodup hname fun other hother => if_neg (by simpa using hother.symm)]
      simp [Option.filter]
    · have hnone : ∀ other, some (⟨scope, found, name⟩ : Opening) ≠ some ⟨number, dispatch, other⟩ := by
        rintro other ⟨⟩
        exact heq ⟨rfl, rfl⟩
      simp [Option.filter, hnone, heq]

end OverloadScope

end StubGen.DeclFile
