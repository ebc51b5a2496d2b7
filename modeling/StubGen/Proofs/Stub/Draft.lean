import StubGen.Proofs.Stub.Anchors

/-!
# Drafts

A draft is the state in which the declarations of a scope are written: the scope with the anchors of the declarations so
far, and the emitter with their lines.  Decorators are scheduled when the scope is finished.

* `Draft.entry` and `Draft.part` are what writing does to a draft.
* `Shows` says that an emitter has the lines of some rows, and what is scheduled of their grouping.
* `shows_draftBody` and `Shows.finish_eq`: the finished lines of a file's body are its rows, grouped.
-/

namespace StubGen

/-- Schedules lines for anchors, one after the other. -/
def Emitter.insertAll (emitter : Emitter) (entries : List (Anchor × String)) : Emitter :=
  entries.foldl (fun emitter entry => emitter.insertBefore entry.1 entry.2) emitter

theorem Emitter.insertAll_eq (emitter : Emitter) (entries : List (Anchor × String)) : emitter.insertAll entries =
    { emitter with scheduled := emitter.scheduled ++
      (entries.map fun entry => (entry.1.position, indented emitter.depth entry.2)).toArray } := by
  induction entries generalizing emitter with
  | nil => simp [insertAll]
  | cons entry rest ih =>
    rw [insertAll, List.foldl_cons, ← insertAll, ih]
    simp [insertBefore]

theorem Emitter.anchor_eq {emitter : Emitter} (h : emitter.fragment = none) :
    emitter.anchor = (⟨emitter.lines.size⟩, emitter) := by
  simp [anchor, flush, h]

namespace DeclFile

open ScopeRow

/-! ### The state of writing -/

/-- The scope and the emitter, while the declarations of a scope are written. -/
structure Draft where
  scope : OverloadScope
  emitter : Emitter

namespace Draft

/-- Nothing is declared in the scope. -/
def opened (emitter : Emitter) : Draft := ⟨[], emitter⟩

def write (draft : Draft) (codes : List Code) : Draft := { draft with emitter := draft.emitter.writeAll codes }

/-- Declares a name at the next line. -/
def declare (draft : Draft) (name : String) : Draft :=
  ⟨draft.scope.push name draft.emitter.anchor.1, draft.emitter.anchor.2⟩

/-- Writes a declaration.  Its anchor is behind what stands ahead of it. -/
def entry (draft : Draft) (decl : Entry) : Draft :=
  (decl.name.elim (draft.write decl.ahead) (draft.write decl.ahead).declare).write decl.code

def entries (draft : Draft) (decls : List Entry) : Draft := decls.foldl entry draft

/-- Schedules the decorators of the scope. -/
def close (dispatch : String) (draft : Draft) : Emitter := draft.emitter.insertAll (draft.scope.decorators dispatch)

end Draft

/-- Writes a class.  The members are a scope of their own. -/
def ClassCode.draft (decl : ClassCode) (emitter : Emitter) : Emitter :=
  let head := emitter.writeAll (.blank 2 :: .line "@external" :: decl.aliases ++ [.line decl.header])
  (((Draft.opened head.indent).entries decl.members).close "singledispatchmethod").dedent

/-- The lines of a type. -/
def Block.lines (block : Block) : List String := (block.decl.draft .empty).finish

/-- Writes a part of a body. -/
def Draft.part (draft : Draft) : Part → Draft
  | .entry decl => draft.entry decl
  | .scope decl => { draft with emitter := decl.draft draft.emitter }

def Draft.parts (draft : Draft) (parts : List Part) : Draft := parts.foldl part draft

/-- Writes a body with the decorators of its functions. -/
def draftBody (parts : List Part) : Emitter := ((Draft.opened .empty).parts parts).close "singledispatch"

/-! ### Rows and what is scheduled for them -/

/-- The row that is scheduled for a position if these scopes are finished. -/
def ScopeRow.scheduledAt (finished : Nat → Bool) (rows : List ScopeRow) (position : Nat) : Option Row :=
  (rows[position]?.filter fun row => row.opening.any fun opening => finished opening.scope).bind
    (inserted? rows (rows.take position))

/-- The emitter has the lines of these rows, and in the scopes that are finished, decorators are scheduled. -/
structure Shows (finished : Nat → Bool) (rows : List ScopeRow) (emitter : Emitter) : Prop where
  fragment : emitter.fragment = none
  lines : emitter.lines.toList = rows.map fun row => row.row.atDepth 0
  scheduled : ∀ position, (emitter.scheduled.toList.filter fun entry => entry.1 = position).map Prod.snd =
    ((scheduledAt finished rows position).map (Row.atDepth 0)).toList

theorem ScopeRow.inserted?_congr {all others : List ScopeRow} {row : ScopeRow}
    (h : ∀ opening ∈ row.opening, countOf opening all = countOf opening others) (before : List ScopeRow) :
    inserted? all before row = inserted? others before row := by
  obtain ⟨row, opening⟩ := row
  cases row with
  | blank => rfl
  | text level text =>
    cases opening with
    | none => rfl
    | some opening => rw [inserted?, inserted?, h opening rfl]

namespace Shows

variable {finished : Nat → Bool} {rows more : List ScopeRow} {emitter : Emitter}

theorem size_lines (h : Shows finished rows emitter) : emitter.lines.size = rows.length := by
  rw [← Array.length_toList, h.lines, List.length_map]

theorem empty : Shows finished [] Emitter.empty :=
  ⟨rfl, rfl, fun _ => rfl⟩

/-- Rows that open nothing in a finished scope may come behind the others. -/
theorem append (h : Shows finished rows emitter)
    (hmore : ∀ row ∈ more, ∀ opening ∈ row.opening, finished opening.scope = false) :
    Shows finished (rows ++ more) (emitter.appendLines (more.map fun row => row.row.atDepth 0)) where
  fragment := h.fragment
  lines := by simp [Emitter.appendLines, h.lines]
  scheduled position := by
    have hnone : ∀ opening, finished opening.scope = true → countOf opening more = 0 := by
      intro opening hopening
      rw [countOf, List.countP_eq_zero]
      intro row hrow heq
      have hfalse := hmore row hrow opening (by simpa using heq)
      rw [hopening] at hfalse
      cases hfalse
    have hlater : scheduledAt finished (rows ++ more) position = scheduledAt finished rows position := by
      rcases Nat.lt_or_ge position rows.length with hlt | hge
      · unfold scheduledAt
        rw [List.getElem?_append_left hlt, List.take_append_of_le_length hlt.le]
        refine Option.bind_congr fun row hrow => inserted?_congr (fun opening hopening => ?_) _
        have hfinished : finished opening.scope = true := by
          have hany := (Option.filter_eq_some_iff.mp hrow).2
          rwa [Option.mem_def.mp hopening] at hany
        rw [countOf_append, hnone opening hfinished, Nat.add_zero]
      · have hrow : (more[position - rows.length]?.filter fun row =>
            row.opening.any fun opening => finished opening.scope) = none := by
          rw [Option.filter_eq_none_iff]
          intro row hrow
          have hfalse := hmore row (List.mem_of_getElem? hrow)
          cases hopening : row.opening with
          | none => simp
          | some opening => simp [hfalse opening hopening]
        rw [scheduledAt, scheduledAt, List.getElem?_append_right hge, hrow, List.getElem?_eq_none hge]
        rfl
    rw [hlater]
    exact h.scheduled position

/-- Finishing a scope schedules the decorators of its rows. -/
theorem insertAll {number : Nat} {dispatch : String} {scope : OverloadScope} (h : Shows finished rows emitter)
    (hscope : scope.Is fun name => anchorsFrom ⟨number, dispatch, name⟩ 0 rows) (hnumber : finished number = false)
    (hrows : ∀ row ∈ rows, ∀ opening ∈ row.opening, opening.scope = number →
      opening.dispatch = dispatch ∧ ∃ text, row.row = .text emitter.depth text) :
    Shows (fun other => finished other || other == number) rows (emitter.insertAll (scope.decorators dispatch)) := by
  rw [Emitter.insertAll_eq]
  refine ⟨h.fragment, h.lines, fun position => ?_⟩
  have hdecorators : (((scope.decorators dispatch).map fun entry =>
      (entry.1.position, indented emitter.depth entry.2)).filter fun entry => entry.1 = position).map Prod.snd =
        (((scope.decorators dispatch).filter fun entry => entry.1.position = position).map Prod.snd).map
          (indented emitter.depth) := by
    rw [List.filter_map, List.map_map, List.map_map]
    rfl
  rw [Array.toList_append, List.filter_append, List.map_append, h.scheduled position, hdecorators,
    hscope.decorators_at]
  unfold scheduledAt
  cases hrow : rows[position]? with
  | none => rfl
  | some row =>
    obtain ⟨text, opening⟩ := row
    cases opening with
    | none => rfl
    | some opening =>
      by_cases heq : opening.scope = number
      · obtain ⟨hdispatch, content, rfl⟩ := hrows _ (List.mem_of_getElem? hrow) opening rfl heq
        simp [Option.filter, heq, hnumber, hdispatch, inserted?_text, Row.atDepth, Function.comp_def, Option.toList_map]
      · simp [Option.filter, heq]

/-- The scheduled lines are woven in as grouping inserts the rows. -/
private theorem weave_eq {scheduled : List (Nat × String)} {all : List ScopeRow} (before : List ScopeRow)
    (h : ∀ index, (scheduled.filter fun entry => entry.1 = before.length + index).map Prod.snd =
      ((rows[index]?.bind (inserted? all (before ++ rows.take index))).map (Row.atDepth 0)).toList) :
    Emitter.weave scheduled before.length (rows.map fun row => row.row.atDepth 0) =
      (groupFrom all before rows).map (Row.atDepth 0) := by
  induction rows generalizing before with
  | nil =>
    have hnone : (scheduled.filter fun entry => before.length ≤ entry.1) = [] := by
      rw [List.filter_eq_nil_iff]
      intro entry hentry hle
      obtain ⟨index, hindex⟩ := Nat.exists_eq_add_of_le (of_decide_eq_true hle)
      have hhere := List.map_eq_nil_iff.mp (h index)
      rw [List.filter_eq_nil_iff] at hhere
      exact hhere entry hentry (by simpa using hindex)
    rw [List.map_nil, Emitter.weave, hnone]
    rfl
  | cons row rest ih =>
    have hfirst := h 0
    have hrest : ∀ index, (scheduled.filter fun entry => entry.1 = (before ++ [row]).length + index).map Prod.snd =
        ((rest[index]?.bind (inserted? all (before ++ [row] ++ rest.take index))).map (Row.atDepth 0)).toList := by
      intro index
      have hlength : (before ++ [row]).length + index = before.length + (index + 1) := by
        rw [List.length_append, List.length_singleton]
        omega
      rw [hlength, h (index + 1), List.append_assoc]
      rfl
    have hweave := ih (before ++ [row]) hrest
    rw [List.length_append, List.length_singleton] at hweave
    rw [List.map_cons, Emitter.weave, hweave, groupFrom, List.map_append, List.map_cons]
    congr 1
    simpa [Option.toList_map] using hfirst

/-- If all scopes are finished, the lines are the rows, grouped. -/
theorem finish_eq (h : Shows (fun _ => true) rows emitter) : emitter.finish = (group rows).map (Row.atDepth 0) := by
  have hflush : emitter.flush = emitter := by simp [Emitter.flush, h.fragment]
  rw [Emitter.finish, hflush, h.lines]
  refine weave_eq [] fun index => ?_
  rw [List.length_nil, Nat.zero_add, h.scheduled index, scheduledAt, List.nil_append]
  congr 2
  cases hrow : rows[index]? with
  | none => rfl
  | some row =>
    obtain ⟨text, opening⟩ := row
    cases opening with
    | none => cases text <;> rfl
    | some opening => rfl

/-- Only the scopes in which a row opens something count. -/
theorem congr {others : Nat → Bool} (h : Shows finished rows emitter)
    (heq : ∀ row ∈ rows, ∀ opening ∈ row.opening, finished opening.scope = others opening.scope) :
    Shows others rows emitter := by
  refine ⟨h.fragment, h.lines, fun position => ?_⟩
  have hscheduled : scheduledAt others rows position = scheduledAt finished rows position := by
    unfold scheduledAt
    cases hrow : rows[position]? with
    | none => rfl
    | some row =>
      have hrow := heq row (List.mem_of_getElem? hrow)
      cases hopening : row.opening with
      | none => simp [Option.filter, hopening]
      | some opening => simp [Option.filter, hopening, hrow opening hopening]
  rw [hscheduled]
  exact h.scheduled position

end Shows

/-! ### Writing declarations -/

theorem ScopeRow.lines_ofCode (level : Nat) (codes : List Code) :
    (ofCode level codes).map (fun row => row.row.atDepth 0) = Code.allLinesAt level codes := by
  have hlines := Code.allLinesAt_add 0 level codes
  rw [Nat.zero_add] at hlines
  rw [hlines, ofCode, List.map_map]
  rfl

theorem ScopeRow.lines_opened (opening : Opening) (rows : List ScopeRow) :
    (opened opening rows).map (fun row => row.row.atDepth 0) = rows.map fun row => row.row.atDepth 0 := by
  cases rows <;> rfl

/-- The draft has the lines of these rows, and the anchors of those that open something in its scope.  The scope is
written at a depth. -/
structure Draft.Shows (finished : Nat → Bool) (number : Nat) (dispatch : String) (depth : Nat) (rows : List ScopeRow)
    (draft : Draft) : Prop where
  emitter : DeclFile.Shows finished rows draft.emitter
  scope : draft.scope.Is fun name => anchorsFrom ⟨number, dispatch, name⟩ 0 rows
  depth : draft.emitter.depth = depth

namespace Draft.Shows

variable {finished : Nat → Bool} {number depth : Nat} {dispatch : String} {rows : List ScopeRow} {draft : Draft}

/-- Code may come behind the others: it opens nothing. -/
theorem write (h : Shows finished number dispatch depth rows draft) (codes : List Code) :
    Shows finished number dispatch depth (rows ++ ofCode depth codes) (draft.write codes) := by
  have hunopened : ∀ row ∈ ofCode depth codes, row.opening = none := by simp [ofCode]
  have hnone : ∀ opening position, anchorsFrom opening position (ofCode depth codes) = [] :=
    fun opening => anchorsFrom_of_unopened fun row hrow => by simp [hunopened row hrow]
  rw [Draft.write, Emitter.writeAll_eq _ h.emitter.fragment, h.depth, ← lines_ofCode]
  refine ⟨h.emitter.append fun row hrow opening hopening => ?_, h.scope.congr fun name => ?_, h.depth⟩
  · rw [hunopened row hrow] at hopening
    cases hopening
  · rw [anchorsFrom_append, hnone, List.append_nil]

/-- A declaration may come behind the others, with its first row at the anchor. -/
theorem declare (h : Shows finished number dispatch depth rows draft) (hnumber : finished number = false)
    (name : String) {codes : List Code} {first : Row} {others : List Row}
    (hcodes : Code.allRowsAt depth codes = first :: others) :
    Shows finished number dispatch depth
      (rows ++ ScopeRow.opened ⟨number, dispatch, name⟩ (ofCode depth codes)) ((draft.declare name).write codes) := by
  have hopened : ScopeRow.opened ⟨number, dispatch, name⟩ (ofCode depth codes) =
      ⟨first, some ⟨number, dispatch, name⟩⟩ :: others.map (⟨·, none⟩) := by
    rw [ofCode, hcodes]
    rfl
  have hnone : ∀ opening position, anchorsFrom opening position (others.map (⟨·, none⟩)) = [] :=
    fun opening => anchorsFrom_of_unopened fun row hrow => by
      obtain ⟨other, -, rfl⟩ := List.mem_map.mp hrow
      simp
  rw [Draft.declare, Emitter.anchor_eq h.emitter.fragment, Draft.write, Emitter.writeAll_eq _ h.emitter.fragment,
    h.depth, ← lines_ofCode, ← lines_opened ⟨number, dispatch, name⟩, hopened]
  refine ⟨h.emitter.append fun row hrow opening hopening => ?_,
    (h.scope.push name ⟨draft.emitter.lines.size⟩).congr fun other => ?_, h.depth⟩
  · rcases List.mem_cons.mp hrow with rfl | hrow
    · cases hopening
      exact hnumber
    · obtain ⟨other, -, rfl⟩ := List.mem_map.mp hrow
      cases hopening
  · rw [anchorsFrom_append, anchorsFrom, hnone, OverloadScope.added, h.emitter.size_lines, Nat.zero_add]
    by_cases heq : other = name
    · rw [if_pos heq, heq, if_pos rfl]
    · rw [if_neg heq, if_neg fun hsome => heq (by simpa using hsome.symm), List.append_nil]

/-- A stub may come behind the others. -/
theorem entry (h : Shows finished number dispatch depth rows draft) (hnumber : finished number = false) {decl : Entry}
    (hdecl : decl.IsStub) :
    Shows finished number dispatch depth (rows ++ decl.scopeRows number dispatch depth) (draft.entry decl) := by
  have hahead := h.write decl.ahead
  rw [Entry.scopeRows, ← List.append_assoc, Draft.entry]
  cases hname : decl.name with
  | none => exact hahead.write decl.code
  | some name =>
    obtain ⟨text, others, hcode⟩ := hdecl.exists_rows hname depth
    exact hahead.declare hnumber name hcode

/-- Stubs may come behind the others. -/
theorem entries (h : Shows finished number dispatch depth rows draft) (hnumber : finished number = false)
    {decls : List Entry} (hdecls : ∀ decl ∈ decls, decl.IsStub) : Shows finished number dispatch depth
      (rows ++ decls.flatMap (Entry.scopeRows number dispatch depth)) (draft.entries decls) := by
  induction decls generalizing rows draft with
  | nil => simpa [Draft.entries] using h
  | cons decl rest ih =>
    obtain ⟨hdecl, hrest⟩ := List.forall_mem_cons.mp hdecls
    have hentries := ih (h.entry hnumber hdecl) hrest
    rwa [List.append_assoc, ← List.flatMap_cons] at hentries

/-- When the scope is finished, the decorators of its declarations are scheduled. -/
theorem close (h : Shows finished number dispatch depth rows draft) (hnumber : finished number = false)
    (hrows : ∀ row ∈ rows, ∀ opening ∈ row.opening, opening.scope = number →
      opening.dispatch = dispatch ∧ ∃ text, row.row = .text depth text) :
    DeclFile.Shows (fun other => finished other || other == number) rows (draft.close dispatch) :=
  h.emitter.insertAll h.scope hnumber (h.depth ▸ hrows)

end Draft.Shows

/-- What opens in the rows of a stub, opens at the line of the stub. -/
theorem Entry.opening_of_mem_scopeRows {decl : Entry} (h : decl.IsStub) {number level : Nat} {dispatch : String}
    {row : ScopeRow} (hrow : row ∈ decl.scopeRows number dispatch level) {opening : Opening}
    (hopening : opening ∈ row.opening) :
    opening.scope = number ∧ opening.dispatch = dispatch ∧ ∃ text, row.row = .text level text := by
  have hcode : ∀ codes, row ∉ ofCode level codes := by
    intro codes hmem
    obtain ⟨other, -, rfl⟩ := List.mem_map.mp hmem
    cases hopening
  rcases List.mem_append.mp hrow with hrow | hrow
  · exact absurd hrow (hcode _)
  · cases hname : decl.name with
    | none =>
      rw [hname] at hrow
      exact absurd hrow (hcode _)
    | some name =>
      obtain ⟨text, others, hothers⟩ := h.exists_rows hname level
      rw [hname] at hrow
      simp only [ofCode, hothers, List.map_cons, ScopeRow.opened] at hrow
      rcases List.mem_cons.mp hrow with rfl | hrow
      · cases hopening
        exact ⟨rfl, rfl, text, rfl⟩
      · obtain ⟨other, -, rfl⟩ := List.mem_map.mp hrow
        cases hopening

/-- What opens in the rows of a class, opens in its scope. -/
theorem ClassCode.scope_of_mem_scopeRows {decl : ClassCode} (h : ∀ entry ∈ decl.members, entry.IsStub) {number : Nat}
    {row : ScopeRow} (hrow : row ∈ decl.scopeRows number) {opening : Opening} (hopening : opening ∈ row.opening) :
    opening.scope = number ∧ opening.dispatch = "singledispatchmethod" ∧ ∃ text, row.row = .text 1 text := by
  rcases List.mem_append.mp hrow with hrow | hrow
  · obtain ⟨other, -, rfl⟩ := List.mem_map.mp hrow
    cases hopening
  · obtain ⟨entry, hentry, hrow⟩ := List.mem_flatMap.mp hrow
    exact Entry.opening_of_mem_scopeRows (h entry hentry) hrow hopening

section Finished

variable {finished : Nat → Bool} {number : Nat} {rows : List ScopeRow} {emitter : Emitter} {decl : ClassCode}

/-- Writing a class adds its rows, and finishes its scope. -/
theorem Shows.draft (h : Shows finished rows emitter) (hdepth : emitter.depth = 0) (hnumber : finished number = false)
    (hrows : ∀ row ∈ rows, ∀ opening ∈ row.opening, opening.scope ≠ number)
    (hdecl : ∀ entry ∈ decl.members, entry.IsStub) :
    Shows (fun other => finished other || other == number) (rows ++ decl.scopeRows number) (decl.draft emitter) ∧
      (decl.draft emitter).depth = 0 := by
  have hstart : (Draft.opened emitter).Shows finished number "singledispatchmethod" 0 rows :=
    ⟨h, OverloadScope.is_nil fun _ => anchorsFrom_of_unopened (fun row hrow heq => hrows row hrow _ heq rfl) 0, hdepth⟩
  have hhead := hstart.write (.blank 2 :: .line "@external" :: decl.aliases ++ [.line decl.header])
  have hopened : (Draft.opened (emitter.writeAll
      (.blank 2 :: .line "@external" :: decl.aliases ++ [.line decl.header])).indent).Shows finished number
        "singledispatchmethod" 1 _ :=
    ⟨⟨hhead.emitter.fragment, hhead.emitter.lines, hhead.emitter.scheduled⟩, hhead.scope,
      congrArg Nat.succ hhead.depth⟩
  have hmembers := hopened.entries hnumber hdecl
  rw [List.append_assoc] at hmembers
  have hclosed := hmembers.close hnumber fun row hrow opening hopening heq => by
    rcases List.mem_append.mp hrow with hrow | hrow
    · exact absurd heq (hrows row hrow opening hopening)
    · exact (ClassCode.scope_of_mem_scopeRows hdecl hrow hopening).2
  refine ⟨⟨hclosed.fragment, hclosed.lines, hclosed.scheduled⟩, ?_⟩
  show ((Draft.entries _ decl.members).close _).depth - 1 = 0
  rw [Draft.close, Emitter.insertAll_eq, hmembers.depth]

/-- A type that is written to an emitter of its own shows its rows. -/
theorem ClassCode.shows_draft (h : ∀ entry ∈ decl.members, entry.IsStub) (number : Nat) :
    Shows (fun _ => true) (decl.scopeRows number) (decl.draft .empty) := by
  have hempty : Shows (fun _ => false) [] Emitter.empty := .empty
  have hdraft : Shows (fun other => false || other == number) ([] ++ decl.scopeRows number) (decl.draft .empty) :=
    (hempty.draft rfl rfl (by simp) h).1
  refine hdraft.congr fun row hrow opening hopening => ?_
  simp [(ClassCode.scope_of_mem_scopeRows h hrow hopening).1]

/-- Writing the parts of a body adds their rows, and finishes the scopes of the classes among them. -/
private theorem shows_close {draft : Draft} {parts : List Part}
    (h : draft.Shows finished 0 "singledispatch" 0 rows) (hbody : finished 0 = false)
    (hlater : ∀ other, number ≤ other → finished other = false) (hnumber : 0 < number)
    (hrows : ∀ row ∈ rows, ∀ opening ∈ row.opening, finished opening.scope = true ∨
      opening.scope = 0 ∧ opening.dispatch = "singledispatch" ∧ ∃ text, row.row = .text 0 text)
    (hparts : ∀ part ∈ parts, part.IsStub) :
    Shows (fun _ => true) (rows ++ bodyRowsFrom number parts) ((draft.parts parts).close "singledispatch") := by
  induction parts generalizing number finished rows draft with
  | nil =>
    rw [bodyRowsFrom, List.append_nil]
    refine (h.close hbody fun row hrow opening hopening heq => ?_).congr fun row hrow opening hopening => ?_
    · rcases hrows row hrow opening hopening with hfinished | hopened
      · rw [heq, hbody] at hfinished
        cases hfinished
      · exact hopened.2
    · rcases hrows row hrow opening hopening with hfinished | hopened
      · simp [hfinished]
      · simp [hopened.1]
  | cons part rest ih =>
    obtain ⟨hpart, hrest⟩ := List.forall_mem_cons.mp hparts
    cases part with
    | entry decl =>
      rw [bodyRowsFrom, ← List.append_assoc]
      refine ih (h.entry hbody hpart) hbody (fun other hle => hlater other (by omega)) number.succ_pos ?_ hrest
      refine List.forall_mem_append.mpr ⟨hrows, fun row hrow opening hopening => Or.inr ?_⟩
      exact Entry.opening_of_mem_scopeRows hpart hrow hopening
    | scope decl =>
      have hothers : ∀ row ∈ rows, ∀ opening ∈ row.opening, opening.scope ≠ number := by
        intro row hrow opening hopening heq
        rcases hrows row hrow opening hopening with hfinished | hopened
        · rw [heq, hlater number le_rfl] at hfinished
          cases hfinished
        · omega
      obtain ⟨hclass, hdepth⟩ := h.emitter.draft h.depth (hlater number le_rfl) hothers hpart
      have hscope : ∀ name, anchorsFrom ⟨0, "singledispatch", name⟩ 0 rows =
          anchorsFrom ⟨0, "singledispatch", name⟩ 0 (rows ++ decl.scopeRows number) := by
        intro name
        have hnone : ∀ row ∈ decl.scopeRows number, row.opening ≠ some ⟨0, "singledispatch", name⟩ :=
          fun row hrow heq => hnumber.ne (ClassCode.scope_of_mem_scopeRows hpart hrow heq).1
        rw [anchorsFrom_append, anchorsFrom_of_unopened hnone, List.append_nil]
      rw [bodyRowsFrom, ← List.append_assoc]
      refine ih ⟨hclass, h.scope.congr hscope, hdepth⟩ (by simp [hbody, hnumber.ne]) (fun other hle => ?_)
        number.succ_pos ?_ hrest
      · have hne : other ≠ number := by omega
        simp [hlater other (by omega), hne]
      · refine List.forall_mem_append.mpr ⟨fun row hrow opening hopening => ?_,
          fun row hrow opening hopening => Or.inl ?_⟩
        · exact (hrows row hrow opening hopening).imp_left fun hfinished => by simp [hfinished]
        · simp [(ClassCode.scope_of_mem_scopeRows hpart hrow hopening).1]

/-- A body shows its rows. -/
theorem shows_draftBody {parts : List Part} (h : ∀ part ∈ parts, part.IsStub) :
    Shows (fun _ => true) (bodyRows parts) (draftBody parts) := by
  have hstart : (Draft.opened .empty).Shows (fun _ => false) 0 "singledispatch" 0 [] :=
    ⟨.empty, OverloadScope.is_nil fun _ => rfl, rfl⟩
  exact shows_close hstart rfl (fun _ _ => rfl) Nat.one_pos (by simp) h

end Finished

end DeclFile

end StubGen
