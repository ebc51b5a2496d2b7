import StubGen.DeclFile.Module
import StubGen.Proofs.Layout.Rows

/-!
# Overloads among the rows

A `ScopeRow` is a row of a module as it comes out before overloads are grouped; it knows the declaration that it opens.
Grouping puts at most one row ahead of each.

* `ScopeRow.group` is grouping on rows alone: it looks at the openings in the rows, not at declarations.
* `ClassCode.group_scopeRows` and `group_bodyRows`: the decorators in the code of classes and of a body are the rows
  that grouping inserts.
-/

namespace StubGen.DeclFile

/-- A declaration that can be overloaded: its scope, the dispatcher of the scope, and its emitted name. -/
structure Opening where
  scope : Nat
  dispatch : String
  name : String
  deriving DecidableEq

/-- A row, with the declaration whose first row it is. -/
structure ScopeRow where
  row : Row
  opening : Option Opening

namespace ScopeRow

/-- How many declarations with this scope and name the rows open. -/
def countOf (opening : Opening) (rows : List ScopeRow) : Nat := rows.countP (·.opening = some opening)

/-- The row inserted ahead of a row, given all rows and those before it.  It has the level of the declaration. -/
def inserted? (all before : List ScopeRow) : ScopeRow → Option Row
  | ⟨.text level _, some opening⟩ =>
    if countOf opening all < 2 then none
    else if countOf opening before = 0 then some (.text level ("@" ++ opening.dispatch))
    else some (.text level ("@" ++ opening.name ++ ".register"))
  | _ => none

/-- The rows after `before`, with the rows inserted. -/
def groupFrom (all before : List ScopeRow) : List ScopeRow → List Row
  | [] => []
  | row :: rest => (inserted? all before row).toList ++ row.row :: groupFrom all (before ++ [row]) rest

/-- All rows, with the rows inserted. -/
def group (rows : List ScopeRow) : List Row := groupFrom rows [] rows

/-- The rows of code in which no declaration opens. -/
def ofCode (level : Nat) (codes : List Code) : List ScopeRow := (Code.allRowsAt level codes).map (⟨·, none⟩)

/-- The rows of a declaration: the first one opens it. -/
def opened (opening : Opening) : List ScopeRow → List ScopeRow
  | [] => []
  | row :: rest => { row with opening := some opening } :: rest

end ScopeRow

/-- The rows of a declaration in a scope. -/
def Entry.scopeRows (scope : Nat) (dispatch : String) (level : Nat) (entry : Entry) : List ScopeRow :=
  ScopeRow.ofCode level entry.ahead ++
    match entry.name with
    | none => ScopeRow.ofCode level entry.code
    | some name => ScopeRow.opened ⟨scope, dispatch, name⟩ (ScopeRow.ofCode level entry.code)

/-- The rows of a class at the left margin, whose members have a scope of this number. -/
def ClassCode.scopeRows (scope : Nat) (decl : ClassCode) : List ScopeRow :=
  ScopeRow.ofCode 0 (.blank 2 :: .line "@external" :: decl.aliases ++ [.line decl.header]) ++
    decl.members.flatMap (Entry.scopeRows scope "singledispatchmethod" 1)

/-- The rows of parts of a body.  Its own scope has number 0, and those of its classes have the numbers from `scope`
on. -/
def bodyRowsFrom (scope : Nat) : List Part → List ScopeRow
  | [] => []
  | .entry decl :: rest => decl.scopeRows 0 "singledispatch" 0 ++ bodyRowsFrom (scope + 1) rest
  | .scope decl :: rest => decl.scopeRows scope ++ bodyRowsFrom (scope + 1) rest

/-- The rows of a body. -/
def bodyRows (parts : List Part) : List ScopeRow := bodyRowsFrom 1 parts

/-- A declaration with a name is the stub of a function of that name.  The decorator that tells the declared name stands
ahead of the line of its definition, if it has one. -/
def Entry.IsStub (entry : Entry) : Prop :=
  ∀ name ∈ entry.name, ∃ aliases : List Code, ∃ head rest : String,
    (aliases = [] ∨ ∃ declared, aliases = [.line ("@" ++ aliasText declared)]) ∧ head ∈ ["def", "async def"] ∧
      entry.code = aliases ++ [.line (head ++ " " ++ name ++ "(" ++ rest)]

/-- The declarations of a part that have a name are stubs. -/
def Part.IsStub : Part → Prop
  | .entry decl => decl.IsStub
  | .scope decl => ∀ entry ∈ decl.members, entry.IsStub

namespace ScopeRow

variable {all before rows : List ScopeRow} {opening : Opening}

@[simp] theorem countOf_append (opening : Opening) (first second : List ScopeRow) :
    countOf opening (first ++ second) = countOf opening first + countOf opening second := List.countP_append

@[simp] theorem countOf_ofCode (opening : Opening) (level : Nat) (codes : List Code) :
    countOf opening (ofCode level codes) = 0 := by
  simp [countOf, ofCode, List.countP_eq_zero]

theorem countOf_opened (other : Opening) (h : rows ≠ []) (hrows : ∀ row ∈ rows, row.opening = none) :
    countOf other (opened opening rows) = if opening = other then 1 else 0 := by
  cases rows with
  | nil => exact absurd rfl h
  | cons row rest =>
    have hrest : countOf other rest = 0 := by
      rw [countOf, List.countP_eq_zero]
      intro row hrow
      simp [hrows row (List.mem_cons_of_mem _ hrow)]
    have hcons : countOf other (opened opening (row :: rest)) =
        countOf other rest + if opening = other then 1 else 0 := by
      simp [countOf, opened, List.countP_cons]
    rw [hcons, hrest, Nat.zero_add]

theorem groupFrom_append (all before first second : List ScopeRow) :
    groupFrom all before (first ++ second) = groupFrom all before first ++ groupFrom all (before ++ first) second := by
  induction first generalizing before with
  | nil => simp [groupFrom]
  | cons row rest ih => simp [groupFrom, ih]

/-- Nothing is inserted among rows that open nothing. -/
theorem groupFrom_unopened (all before : List ScopeRow) (rows : List Row) :
    groupFrom all before (rows.map (⟨·, none⟩)) = rows := by
  induction rows generalizing before with
  | nil => rfl
  | cons row rest ih =>
    have hnone : inserted? all before ⟨row, none⟩ = none := by cases row <;> rfl
    rw [List.map_cons, groupFrom, hnone, ih]
    rfl

/-- Grouping has to use the dispatcher: something with it is opened more than once. -/
def Dispatches (dispatch : String) (rows : List ScopeRow) : Prop :=
  ∃ opening, opening.dispatch = dispatch ∧ 2 ≤ countOf opening rows

end ScopeRow

open ScopeRow

section Entries

variable {all before : List ScopeRow} {scope level : Nat} {dispatch : String} {every earlier entries : List Entry}

/-- The rows of a stub begin with a line. -/
theorem Entry.IsStub.exists_rows {entry : Entry} (h : entry.IsStub) {name : String} (hname : entry.name = some name)
    (level : Nat) : ∃ text rows, Code.allRowsAt level entry.code = .text level text :: rows := by
  obtain ⟨aliases, head, rest, rfl | ⟨declared, rfl⟩, -, hcode⟩ := h name hname
  · exact ⟨_, _, by rw [hcode]; rfl⟩
  · exact ⟨_, _, by rw [hcode]; rfl⟩

/-- How often the rows of a declaration open a name: once if the name is its own. -/
theorem countOf_scopeRows {entry : Entry} (h : entry.IsStub) (scope : Nat) (dispatch : String) (level : Nat)
    (opening : Opening) : countOf opening (entry.scopeRows scope dispatch level) =
      if opening.scope = scope ∧ opening.dispatch = dispatch ∧ entry.name = some opening.name then 1 else 0 := by
  rw [Entry.scopeRows, countOf_append, countOf_ofCode, Nat.zero_add]
  cases hname : entry.name with
  | none => simp
  | some name =>
    obtain ⟨text, rows, hrows⟩ := h.exists_rows hname level
    have hne : ofCode level entry.code ≠ [] := by simp [ofCode, hrows]
    rw [countOf_opened opening hne (by simp [ofCode])]
    refine if_congr ?_ rfl rfl
    obtain ⟨otherScope, otherDispatch, otherName⟩ := opening
    simp only [Opening.mk.injEq, Option.some.injEq]
    constructor
    · rintro ⟨rfl, rfl, rfl⟩
      exact ⟨rfl, rfl, rfl⟩
    · rintro ⟨rfl, rfl, rfl⟩
      exact ⟨rfl, rfl, rfl⟩

/-- The rows of the declarations of a scope open each name as often as it is declared. -/
theorem countOf_flatMap (h : ∀ entry ∈ entries, entry.IsStub) (scope : Nat) (dispatch : String) (level : Nat)
    (name : String) : countOf ⟨scope, dispatch, name⟩ (entries.flatMap (Entry.scopeRows scope dispatch level)) =
      Entry.countOf name entries := by
  induction entries with
  | nil => rfl
  | cons entry rest ih =>
    obtain ⟨hentry, hrest⟩ := List.forall_mem_cons.mp h
    rw [List.flatMap_cons, countOf_append, countOf_scopeRows hentry, ih hrest, Entry.countOf, Entry.countOf,
      List.countP_cons, Nat.add_comm]
    simp

/-- They open nothing of another scope. -/
theorem countOf_flatMap_of_ne {opening : Opening} (h : opening.scope = scope → opening.dispatch ≠ dispatch)
    (hstubs : ∀ entry ∈ entries, entry.IsStub) (level : Nat) :
    countOf opening (entries.flatMap (Entry.scopeRows scope dispatch level)) = 0 := by
  induction entries with
  | nil => rfl
  | cons entry rest ih =>
    obtain ⟨hentry, hrest⟩ := List.forall_mem_cons.mp hstubs
    rw [List.flatMap_cons, countOf_append, countOf_scopeRows hentry, ih hrest, if_neg fun heq => h heq.1 heq.2.1]

/-- The rows of a declaration are grouped as its decorator says, if the rows count names as the scope does. -/
theorem groupFrom_entry {entry : Entry} (h : entry.IsStub)
    (hall : ∀ name, countOf ⟨scope, dispatch, name⟩ all = Entry.countOf name every)
    (hbefore : ∀ name, countOf ⟨scope, dispatch, name⟩ before = Entry.countOf name earlier) :
    groupFrom all before (entry.scopeRows scope dispatch level) =
      Code.allRowsAt level
        (entry.ahead ++ entry.name.elim [] (Entry.decorator dispatch every earlier) ++ entry.code) := by
  have hahead : groupFrom all before (ofCode level entry.ahead) = Code.allRowsAt level entry.ahead :=
    groupFrom_unopened ..
  rw [Entry.scopeRows, groupFrom_append, hahead, Code.allRowsAt_append, Code.allRowsAt_append, List.append_assoc]
  congr 1
  cases hname : entry.name with
  | none => exact groupFrom_unopened ..
  | some name =>
    obtain ⟨text, rows, hrows⟩ := h.exists_rows hname level
    have hopened : opened ⟨scope, dispatch, name⟩ (ofCode level entry.code) =
        ⟨.text level text, some ⟨scope, dispatch, name⟩⟩ :: rows.map (⟨·, none⟩) := by
      rw [ofCode, hrows]
      rfl
    have hcount : countOf ⟨scope, dispatch, name⟩ (before ++ ofCode level entry.ahead) =
        Entry.countOf name earlier := by
      rw [countOf_append, countOf_ofCode, hbefore, Nat.add_zero]
    simp only [hopened, groupFrom, groupFrom_unopened, inserted?, hall, hcount, hrows, Option.elim_some,
      Entry.decorator, Nat.lt_succ_iff]
    split
    · rfl
    · split <;> rfl

/-- The rows of declarations are grouped as their decorators say. -/
theorem groupFrom_entries (h : ∀ entry ∈ entries, entry.IsStub)
    (hall : ∀ name, countOf ⟨scope, dispatch, name⟩ all = Entry.countOf name every)
    (hbefore : ∀ name, countOf ⟨scope, dispatch, name⟩ before = Entry.countOf name earlier) :
    groupFrom all before (entries.flatMap (Entry.scopeRows scope dispatch level)) =
      Code.allRowsAt level (Entry.decorateFrom dispatch every earlier entries) := by
  induction entries generalizing before earlier with
  | nil => rfl
  | cons entry rest ih =>
    obtain ⟨hentry, hrest⟩ := List.forall_mem_cons.mp h
    have hnext : ∀ name, countOf ⟨scope, dispatch, name⟩ (before ++ entry.scopeRows scope dispatch level) =
        Entry.countOf name (earlier ++ [entry]) := by
      intro name
      rw [countOf_append, hbefore, countOf_scopeRows hentry, Entry.countOf, Entry.countOf, List.countP_append,
        List.countP_singleton]
      simp
    rw [List.flatMap_cons, groupFrom_append, groupFrom_entry hentry hall hbefore, ih hrest hnext,
      Entry.decorateFrom, ← Code.allRowsAt_append]

/-- The rows of a class are grouped as the decorators of its members say, if its scope is its own. -/
theorem groupFrom_class {decl : ClassCode} (h : ∀ entry ∈ decl.members, entry.IsStub)
    (hall : ∀ name, countOf ⟨scope, "singledispatchmethod", name⟩ all = Entry.countOf name decl.members)
    (hbefore : ∀ name, countOf ⟨scope, "singledispatchmethod", name⟩ before = 0) :
    groupFrom all before (decl.scopeRows scope) = Code.rows decl.code := by
  have hhead : ∀ codes, groupFrom all before (ofCode 0 codes) = Code.allRowsAt 0 codes := fun codes =>
    groupFrom_unopened ..
  have hnone : ∀ codes name, countOf ⟨scope, "singledispatchmethod", name⟩ (before ++ ofCode 0 codes) =
      Entry.countOf name [] := by
    intro codes name
    rw [countOf_append, hbefore, countOf_ofCode]
    rfl
  rw [ClassCode.scopeRows, groupFrom_append, hhead, groupFrom_entries h hall (hnone _)]
  simp [Code.rows, ClassCode.code, Code.allRowsAt, Code.rowsAt, Code.allRowsAt_append, Entry.decorate]

theorem countOf_class {decl : ClassCode} (h : ∀ entry ∈ decl.members, entry.IsStub) (scope : Nat) (name : String) :
    countOf ⟨scope, "singledispatchmethod", name⟩ (decl.scopeRows scope) = Entry.countOf name decl.members := by
  rw [ClassCode.scopeRows, countOf_append, countOf_ofCode, countOf_flatMap h, Nat.zero_add]

theorem countOf_class_of_ne {opening : Opening}
    (h : opening.scope = scope → opening.dispatch ≠ "singledispatchmethod") {decl : ClassCode}
    (hstubs : ∀ entry ∈ decl.members, entry.IsStub) : countOf opening (decl.scopeRows scope) = 0 := by
  rw [ClassCode.scopeRows, countOf_append, countOf_ofCode, countOf_flatMap_of_ne h hstubs]

/-- The decorators in the code of a class are the rows that grouping inserts. -/
theorem ClassCode.group_scopeRows {decl : ClassCode} (h : ∀ entry ∈ decl.members, entry.IsStub) (scope : Nat) :
    group (decl.scopeRows scope) = Code.rows decl.code :=
  groupFrom_class h (countOf_class h scope) fun _ => rfl

theorem Entry.hasOverloads_iff (entries : List Entry) :
    Entry.hasOverloads entries = true ↔ ∃ name, 2 ≤ Entry.countOf name entries := by
  simp only [Entry.hasOverloads, List.any_eq_true, Option.any_eq_true, decide_eq_true_eq]
  constructor
  · rintro ⟨_, -, name, -, hcount⟩
    exact ⟨name, hcount⟩
  · rintro ⟨name, hcount⟩
    obtain ⟨entry, hentry, hname⟩ := List.countP_pos_iff.mp (Nat.zero_lt_of_lt hcount)
    exact ⟨entry, hentry, name, by simpa using hname, hcount⟩

/-- The rows of a class use the dispatcher of methods if its members are overloaded, and no other one. -/
theorem dispatches_class {decl : ClassCode} (h : ∀ entry ∈ decl.members, entry.IsStub) (scope : Nat)
    (dispatch : String) : Dispatches dispatch (decl.scopeRows scope) ↔
      dispatch = "singledispatchmethod" ∧ Entry.hasOverloads decl.members = true := by
  rw [Entry.hasOverloads_iff]
  constructor
  · rintro ⟨⟨other, dispatch, name⟩, rfl, hcount⟩
    by_cases heq : other = scope ∧ dispatch = "singledispatchmethod"
    · obtain ⟨rfl, rfl⟩ := heq
      exact ⟨rfl, name, by rwa [countOf_class h] at hcount⟩
    · rw [countOf_class_of_ne (fun hscope hdispatch => heq ⟨hscope, hdispatch⟩) h] at hcount
      cases hcount
  · rintro ⟨rfl, name, hcount⟩
    exact ⟨⟨scope, "singledispatchmethod", name⟩, rfl, by rwa [countOf_class h]⟩

end Entries

section Body

variable {all before : List ScopeRow} {scope : Nat} {parts : List Part} {every earlier : List Entry}

/-- The rows of a body open each name of its own scope as often as it is declared there. -/
theorem countOf_bodyRowsFrom (h : ∀ part ∈ parts, part.IsStub) (hscope : 0 < scope) (name : String) :
    countOf ⟨0, "singledispatch", name⟩ (bodyRowsFrom scope parts) = Entry.countOf name (parts.map Part.toEntry) := by
  induction parts generalizing scope with
  | nil => rfl
  | cons part rest ih =>
    obtain ⟨hpart, hrest⟩ := List.forall_mem_cons.mp h
    rw [List.map_cons, Entry.countOf, List.countP_cons, ← Entry.countOf, ← ih hrest scope.succ_pos, Nat.add_comm]
    cases part with
    | entry decl =>
      rw [bodyRowsFrom, countOf_append, countOf_scopeRows hpart, Part.toEntry]
      simp
    | scope decl =>
      rw [bodyRowsFrom, countOf_append, countOf_class_of_ne (fun heq => absurd heq hscope.ne) hpart]
      simp [Part.toEntry, Entry.plain]

/-- The rows of a body open nothing of a scope that comes before those of its classes, functions aside. -/
theorem countOf_bodyRowsFrom_of_lt {opening : Opening} (h : ∀ part ∈ parts, part.IsStub)
    (hbody : opening.scope = 0 → opening.dispatch ≠ "singledispatch") (hlt : opening.scope < scope) :
    countOf opening (bodyRowsFrom scope parts) = 0 := by
  induction parts generalizing scope with
  | nil => rfl
  | cons part rest ih =>
    obtain ⟨hpart, hrest⟩ := List.forall_mem_cons.mp h
    have hnext := ih hrest (hlt.trans scope.lt_succ_self)
    cases part with
    | entry decl =>
      rw [bodyRowsFrom, countOf_append, countOf_scopeRows hpart, hnext, if_neg fun heq => hbody heq.1 heq.2.1]
    | scope decl => rw [bodyRowsFrom, countOf_append, countOf_class_of_ne (fun heq => absurd heq hlt.ne) hpart, hnext]

/-- The rows of a body are grouped as the decorators of its declarations and of its classes say. -/
theorem groupFrom_bodyRowsFrom (h : ∀ part ∈ parts, part.IsStub) (hscope : 0 < scope)
    (hrows : all = before ++ bodyRowsFrom scope parts)
    (hlater : ∀ opening : Opening, scope ≤ opening.scope → countOf opening before = 0)
    (hall : ∀ name, countOf ⟨0, "singledispatch", name⟩ all = Entry.countOf name every)
    (hbefore : ∀ name, countOf ⟨0, "singledispatch", name⟩ before = Entry.countOf name earlier) :
    groupFrom all before (bodyRowsFrom scope parts) =
      Code.allRowsAt 0 (Entry.decorateFrom "singledispatch" every earlier (parts.map Part.toEntry)) := by
  induction parts generalizing scope before earlier with
  | nil => rfl
  | cons part rest ih =>
    obtain ⟨hpart, hrest⟩ := List.forall_mem_cons.mp h
    rw [List.map_cons, Entry.decorateFrom, Code.allRowsAt_append]
    cases part with
    | entry decl =>
      have hlaterNext : ∀ opening : Opening, scope + 1 ≤ opening.scope →
          countOf opening (before ++ decl.scopeRows 0 "singledispatch" 0) = 0 := by
        intro opening hle
        rw [countOf_append, hlater opening (scope.le_succ.trans hle), countOf_scopeRows hpart,
          if_neg fun heq => by omega]
      have hbeforeNext : ∀ name, countOf ⟨0, "singledispatch", name⟩ (before ++ decl.scopeRows 0 "singledispatch" 0) =
          Entry.countOf name (earlier ++ [decl]) := by
        intro name
        rw [countOf_append, hbefore, countOf_scopeRows hpart, Entry.countOf, Entry.countOf, List.countP_append,
          List.countP_singleton]
        simp
      rw [bodyRowsFrom, groupFrom_append, groupFrom_entry hpart hall hbefore,
        ih hrest scope.succ_pos (by rw [hrows, bodyRowsFrom, List.append_assoc]) hlaterNext hbeforeNext]
      rfl
    | scope decl =>
      have hown : ∀ name, countOf ⟨scope, "singledispatchmethod", name⟩ all = Entry.countOf name decl.members := by
        intro name
        rw [hrows, bodyRowsFrom, countOf_append, countOf_append, hlater _ le_rfl, countOf_class hpart,
          countOf_bodyRowsFrom_of_lt hrest (fun heq => absurd heq hscope.ne') scope.lt_succ_self, Nat.zero_add,
          Nat.add_zero]
      have hlaterNext : ∀ opening : Opening, scope + 1 ≤ opening.scope →
          countOf opening (before ++ decl.scopeRows scope) = 0 := by
        intro opening hle
        rw [countOf_append, hlater opening (scope.le_succ.trans hle),
          countOf_class_of_ne (fun heq => absurd heq (Nat.lt_of_succ_le hle).ne') hpart]
      have hbeforeNext : ∀ name, countOf ⟨0, "singledispatch", name⟩ (before ++ decl.scopeRows scope) =
          Entry.countOf name (earlier ++ [.plain decl.code]) := by
        intro name
        rw [countOf_append, hbefore, countOf_class_of_ne (fun heq => absurd heq hscope.ne) hpart, Entry.countOf,
          Entry.countOf, List.countP_append, List.countP_singleton]
        simp [Entry.plain]
      rw [bodyRowsFrom, groupFrom_append, groupFrom_class hpart hown fun name => hlater _ le_rfl,
        ih hrest scope.succ_pos (by rw [hrows, bodyRowsFrom, List.append_assoc]) hlaterNext hbeforeNext]
      simp [Part.toEntry, Entry.plain, Code.rows]

/-- The decorators in the code of a body are the rows that grouping inserts. -/
theorem group_bodyRows (h : ∀ part ∈ parts, part.IsStub) : group (bodyRows parts) = Code.rows (bodyCode parts) :=
  groupFrom_bodyRowsFrom h Nat.one_pos rfl (fun _ _ => rfl) (countOf_bodyRowsFrom h Nat.one_pos) fun _ => rfl

/-- What the rows of a body open in the scope of a class, a class among the parts declares. -/
private theorem exists_class {opening : Opening} (h : ∀ part ∈ parts, part.IsStub) (hpos : 0 < opening.scope)
    (hcount : 2 ≤ countOf opening (bodyRowsFrom scope parts)) :
    ∃ decl, Part.scope decl ∈ parts ∧ Dispatches opening.dispatch (decl.scopeRows opening.scope) := by
  induction parts generalizing scope with
  | nil => cases hcount
  | cons part rest ih =>
    obtain ⟨hpart, hrest⟩ := List.forall_mem_cons.mp h
    cases part with
    | entry decl =>
      rw [bodyRowsFrom, countOf_append, countOf_scopeRows hpart, if_neg fun heq => hpos.ne' heq.1,
        Nat.zero_add] at hcount
      obtain ⟨found, hmem, hfound⟩ := ih hrest hcount
      exact ⟨found, List.mem_cons_of_mem _ hmem, hfound⟩
    | scope decl =>
      rw [bodyRowsFrom, countOf_append] at hcount
      by_cases heq : opening.scope = scope
      · rw [countOf_bodyRowsFrom_of_lt hrest (fun hzero => absurd hzero hpos.ne')
          (heq ▸ opening.scope.lt_succ_self), Nat.add_zero, ← heq] at hcount
        exact ⟨decl, List.mem_cons_self .., opening, rfl, hcount⟩
      · rw [countOf_class_of_ne (fun hscope => absurd hscope heq) hpart, Nat.zero_add] at hcount
        obtain ⟨found, hmem, hfound⟩ := ih hrest hcount
        exact ⟨found, List.mem_cons_of_mem _ hmem, hfound⟩

private theorem dispatches_of_class {decl : ClassCode} (hmem : Part.scope decl ∈ parts) {name : String}
    (h : ∀ entry ∈ decl.members, entry.IsStub) (hcount : 2 ≤ Entry.countOf name decl.members) (scope : Nat) :
    Dispatches "singledispatchmethod" (bodyRowsFrom scope parts) := by
  induction parts generalizing scope with
  | nil => cases hmem
  | cons part rest ih =>
    rcases List.mem_cons.mp hmem with rfl | hmem
    · refine ⟨⟨scope, "singledispatchmethod", name⟩, rfl, ?_⟩
      rw [bodyRowsFrom, countOf_append, countOf_class h]
      exact hcount.trans (Nat.le_add_right ..)
    · obtain ⟨opening, hdispatch, hopening⟩ := ih hmem (scope + 1)
      refine ⟨opening, hdispatch, hopening.trans ?_⟩
      cases part <;> rw [bodyRowsFrom, countOf_append] <;> exact Nat.le_add_left ..

/-- The rows of a body use the dispatcher of functions if its functions are overloaded, and that of methods if the
members of a class are. -/
theorem dispatches_body (h : ∀ part ∈ parts, part.IsStub) (dispatch : String) : Dispatches dispatch (bodyRows parts) ↔
    dispatch = "singledispatch" ∧ Entry.hasOverloads (parts.map Part.toEntry) = true ∨
      dispatch = "singledispatchmethod" ∧
        ∃ decl, Part.scope decl ∈ parts ∧ Entry.hasOverloads decl.members = true := by
  constructor
  · rintro ⟨⟨scope, dispatch, name⟩, rfl, hcount⟩
    rcases Nat.eq_zero_or_pos scope with rfl | hpos
    · by_cases hdispatch : dispatch = "singledispatch"
      · subst hdispatch
        rw [bodyRows, countOf_bodyRowsFrom h Nat.one_pos] at hcount
        exact Or.inl ⟨rfl, (Entry.hasOverloads_iff _).mpr ⟨name, hcount⟩⟩
      · rw [bodyRows, countOf_bodyRowsFrom_of_lt h (fun _ => hdispatch) Nat.one_pos] at hcount
        cases hcount
    · obtain ⟨decl, hmem, hdecl⟩ := exists_class h hpos hcount
      obtain ⟨hdispatch, hoverloads⟩ := (dispatches_class (h _ hmem) scope dispatch).mp hdecl
      exact Or.inr ⟨hdispatch, decl, hmem, hoverloads⟩
  · rintro (⟨rfl, hoverloads⟩ | ⟨rfl, decl, hmem, hoverloads⟩)
    · obtain ⟨name, hcount⟩ := (Entry.hasOverloads_iff _).mp hoverloads
      exact ⟨⟨0, "singledispatch", name⟩, rfl, by rwa [bodyRows, countOf_bodyRowsFrom h Nat.one_pos]⟩
    · obtain ⟨name, hcount⟩ := (Entry.hasOverloads_iff _).mp hoverloads
      exact dispatches_of_class hmem (h _ hmem) hcount 1

end Body

end StubGen.DeclFile
