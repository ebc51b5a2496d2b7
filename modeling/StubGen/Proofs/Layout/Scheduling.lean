import StubGen.Layout.Emitter

/-!
# Scheduled lines

What an emitter finishes with is told from the operations alone, without positions: the lines in the order in which
they were begun, and ahead of each the lines scheduled for the anchors that were taken since the line before
(`finish_run`).

* `rows` lists the lines of some operations with their depths, and marks the places where anchors were taken.
* `placed` puts scheduled lines where their anchors are marked.
* `lines_run`, `anchors_run` and `scheduled_run` say what any operations leave behind in an emitter.
-/

namespace StubGen.Emitter

/-! ### Operations -/

/-- An operation on an emitter.  Anchors are numbered in the order in which they are taken. -/
inductive Op where
  | line (text : String)
  | push (text : String)
  | blank (count : Nat)
  | flush
  | indent
  | dedent
  | anchor
  | insertBefore (number : Nat) (text : String)

/-- Whether the operation schedules a line. -/
def Op.isInsertion : Op → Bool
  | .insertBefore _ _ => true
  | _ => false

/-- Whether the operation takes an anchor. -/
def Op.isAnchor : Op → Bool
  | .anchor => true
  | _ => false

/-- An emitter and the anchors that have been taken from it. -/
structure Session where
  emitter : Emitter
  anchors : List Anchor

namespace Session

/-- The session at the start. -/
def start : Session := ⟨Emitter.empty, []⟩

/-- Performs an operation.  Nothing is scheduled for an anchor that has not been taken. -/
def perform (session : Session) : Op → Session
  | .line text => { session with emitter := session.emitter.line text }
  | .push text => { session with emitter := session.emitter.push text }
  | .blank count => { session with emitter := session.emitter.blank count }
  | .flush => { session with emitter := session.emitter.flush }
  | .indent => { session with emitter := session.emitter.indent }
  | .dedent => { session with emitter := session.emitter.dedent }
  | .anchor => ⟨session.emitter.anchor.2, session.anchors ++ [session.emitter.anchor.1]⟩
  | .insertBefore number text =>
    match session.anchors[number]? with
    | some anchor => { session with emitter := session.emitter.insertBefore anchor text }
    | none => session

def run (session : Session) (ops : List Op) : Session := ops.foldl perform session

end Session

/-- Whether lines are scheduled only for anchors that have been taken, where `taken` is the number of those taken
before. -/
def isAnchored (taken : Nat) : List Op → Bool
  | [] => true
  | .anchor :: rest => isAnchored (taken + 1) rest
  | .insertBefore number _ :: rest => decide (number < taken) && isAnchored taken rest
  | _ :: rest => isAnchored taken rest

/-! ### Rows -/

/-- What operations leave behind at a place: a line or a fragment, with the depth at which it was written or opened, an
empty line, or the mark of an anchor. -/
inductive Row where
  | line (depth : Nat) (text : String)
  | empty
  | mark (number : Nat)

/-- The line of a row, indented to its depth. -/
def Row.text? : Row → Option String
  | .line depth text => some (indented depth text)
  | .empty => some ""
  | .mark _ => none

/-- What the operations add to a fragment that is open. -/
def pushed : List Op → String
  | .push text :: rest => text ++ pushed rest
  | .indent :: rest | .dedent :: rest | .insertBefore _ _ :: rest => pushed rest
  | _ => ""

/-- The rows of operations at a depth, with `taken` anchors taken before.  A fragment that is `opened` has its row
already. -/
def rows (depth taken : Nat) (opened : Bool) : List Op → List Row
  | [] => []
  | .line text :: rest => .line depth text :: rows depth taken false rest
  | .push text :: rest =>
    if opened then rows depth taken true rest else .line depth (text ++ pushed rest) :: rows depth taken true rest
  | .blank count :: rest => List.replicate count .empty ++ rows depth taken false rest
  | .flush :: rest => rows depth taken false rest
  | .indent :: rest => rows (depth + 1) taken opened rest
  | .dedent :: rest => rows (depth - 1) taken opened rest
  | .anchor :: rest => .mark taken :: rows depth (taken + 1) false rest
  | .insertBefore _ _ :: rest => rows depth taken opened rest

/-- The lines of rows. -/
def texts (rows : List Row) : List String := rows.filterMap Row.text?

/-- The lines that operations at a depth schedule, with the numbers of their anchors. -/
def scheduledLines (depth : Nat) : List Op → List (Nat × String)
  | [] => []
  | .insertBefore number text :: rest => (number, indented depth text) :: scheduledLines depth rest
  | .indent :: rest => scheduledLines (depth + 1) rest
  | .dedent :: rest => scheduledLines (depth - 1) rest
  | _ :: rest => scheduledLines depth rest

/-- The lines scheduled for some anchors. -/
def linesFor (entries : List (Nat × String)) (numbers : List Nat) : List String :=
  (entries.filter fun entry => entry.1 ∈ numbers).map Prod.snd

/-- The lines of the rows, each after the lines scheduled for the anchors that are marked since the line before;
`numbers` are those marked already. -/
def placed (entries : List (Nat × String)) (numbers : List Nat) : List Row → List String
  | [] => linesFor entries numbers
  | .mark number :: rest => placed entries (numbers ++ [number]) rest
  | .line depth text :: rest => linesFor entries numbers ++ indented depth text :: placed entries [] rest
  | .empty :: rest => linesFor entries numbers ++ "" :: placed entries [] rest

/-! ### Lines and marks of rows -/

@[simp] theorem texts_line (depth : Nat) (text : String) (rest : List Row) :
    texts (.line depth text :: rest) = indented depth text :: texts rest := rfl

@[simp] theorem texts_empty (rest : List Row) : texts (.empty :: rest) = "" :: texts rest := rfl

@[simp] theorem texts_mark (number : Nat) (rest : List Row) : texts (.mark number :: rest) = texts rest := rfl

@[simp] theorem texts_empties (count : Nat) (rest : List Row) :
    texts (List.replicate count .empty ++ rest) = List.replicate count "" ++ texts rest := by
  induction count with
  | zero => rfl
  | succ count ih => rw [List.replicate_succ, List.cons_append, texts_empty, ih, List.replicate_succ, List.cons_append]

/-- The numbers of the marked anchors, with the number of lines ahead of each mark. -/
def marked (position : Nat) : List Row → List (Nat × Nat)
  | [] => []
  | .mark number :: rest => (number, position) :: marked position rest
  | _ :: rest => marked (position + 1) rest

@[simp] theorem marked_empties (position count : Nat) (rest : List Row) :
    marked position (List.replicate count .empty ++ rest) = marked (position + count) rest := by
  induction count generalizing position with
  | zero => rfl
  | succ count ih =>
    rw [List.replicate_succ, List.cons_append, marked, ih]
    · congr 1
      omega
    · nofun

theorem le_of_mem_marked {position : Nat} {rows : List Row} {mark : Nat × Nat} (h : mark ∈ marked position rows) :
    position ≤ mark.2 ∧ mark.2 ≤ position + (texts rows).length := by
  induction rows generalizing position with
  | nil => cases h
  | cons row rest ih =>
    cases row with
    | line depth text =>
      have hrest := ih h
      rw [texts_line, List.length_cons]
      omega
    | empty =>
      have hrest := ih h
      rw [texts_empty, List.length_cons]
      omega
    | mark number =>
      rcases List.mem_cons.mp h with rfl | h
      · exact ⟨Nat.le_refl position, Nat.le_add_right ..⟩
      · exact ih h

/-- The marks of operations are numbered in order. -/
theorem map_fst_marked (depth taken position : Nat) (opened : Bool) (ops : List Op) :
    (marked position (rows depth taken opened ops)).map Prod.fst = List.range' taken (ops.countP Op.isAnchor) := by
  induction ops generalizing depth taken opened position with
  | nil => rfl
  | cons op rest ih =>
    cases op with
    | push text => cases opened <;> simp [rows, marked, Op.isAnchor, ih]
    | anchor => rw [rows, marked, List.map_cons, ih, List.countP_cons_of_pos rfl, List.range'_succ]
    | _ => simp [rows, marked, Op.isAnchor, ih]

/-! ### What a run leaves behind -/

theorem lines_run (session : Session) (ops : List Op) :
    (session.run ops).emitter.flush.lines.toList =
      session.emitter.lines.toList ++ (session.emitter.fragment.map (· ++ pushed ops)).toList ++
        texts (rows session.emitter.depth session.anchors.length session.emitter.fragment.isSome ops) := by
  induction ops generalizing session with
  | nil =>
    obtain ⟨⟨lines, fragment, depth, scheduled⟩, anchors⟩ := session
    cases fragment with
    | none => simp [Session.run, flush, rows, texts]
    | some text => simp [Session.run, flush, rows, texts, pushed]
  | cons op rest ih =>
    have hstep : session.run (op :: rest) = (session.perform op).run rest := rfl
    rw [hstep, ih]
    obtain ⟨⟨lines, fragment, depth, scheduled⟩, anchors⟩ := session
    cases op with
    | line text => cases fragment <;> simp [Session.perform, line, flush, rows, pushed]
    | push text =>
      cases fragment with
      | none => simp [Session.perform, push, rows, pushed, indented, String.append_assoc]
      | some opened => simp [Session.perform, push, rows, pushed, String.append_assoc]
    | blank count => cases fragment <;> simp [Session.perform, blank, flush, rows, pushed]
    | flush => cases fragment <;> simp [Session.perform, flush, rows, pushed]
    | indent => simp [Session.perform, indent, rows, pushed]
    | dedent => simp [Session.perform, dedent, rows, pushed]
    | anchor => cases fragment <;> simp [Session.perform, anchor, flush, rows, pushed]
    | insertBefore number text =>
      simp only [Session.perform, rows, pushed]
      split <;> rfl

theorem anchors_run (session : Session) (ops : List Op) :
    (session.run ops).anchors = session.anchors ++
      (marked session.emitter.size (rows session.emitter.depth session.anchors.length
        session.emitter.fragment.isSome ops)).map (⟨·.2⟩) := by
  induction ops generalizing session with
  | nil => simp [Session.run, rows, marked]
  | cons op rest ih =>
    have hstep : session.run (op :: rest) = (session.perform op).run rest := rfl
    rw [hstep, ih]
    obtain ⟨⟨lines, fragment, depth, scheduled⟩, anchors⟩ := session
    cases op with
    | line text => cases fragment <;> simp [Session.perform, line, flush, size, rows, marked]
    | push text => cases fragment <;> simp [Session.perform, push, size, rows, marked]
    | blank count => cases fragment <;> simp [Session.perform, blank, flush, size, rows]
    | flush => cases fragment <;> simp [Session.perform, flush, size, rows]
    | indent => rfl
    | dedent => rfl
    | anchor => cases fragment <;> simp [Session.perform, anchor, flush, size, rows, marked]
    | insertBefore number text =>
      simp only [Session.perform, rows]
      split <;> rfl

/-- The position of the anchor of a number. -/
def Session.positionOf (session : Session) (number : Nat) : Nat := (session.anchors[number]?.map Anchor.position).getD 0

/-- An anchor that is there stays where it is. -/
theorem positionOf_run (session : Session) {number : Nat} (h : number < session.anchors.length) (ops : List Op) :
    (session.run ops).positionOf number = session.positionOf number := by
  rw [Session.positionOf, anchors_run, List.getElem?_append_left h, ← Session.positionOf]

@[simp] theorem scheduled_flush (emitter : Emitter) : emitter.flush.scheduled = emitter.scheduled := by
  unfold flush
  split <;> rfl

/-- Whatever is no insertion schedules nothing. -/
theorem scheduled_perform (session : Session) {op : Op} (h : op.isInsertion = false) :
    (session.perform op).emitter.scheduled = session.emitter.scheduled := by
  cases op with
  | insertBefore => cases h
  | push | indent | dedent => rfl
  | line | blank | flush | anchor => exact session.emitter.scheduled_flush

theorem scheduledLines_cons (session : Session) {op : Op} (h : op.isInsertion = false) (rest : List Op) :
    scheduledLines (session.perform op).emitter.depth rest = scheduledLines session.emitter.depth (op :: rest) := by
  have hflush : session.emitter.flush.depth = session.emitter.depth := by
    unfold Emitter.flush
    split <;> rfl
  cases op with
  | insertBefore => cases h
  | push | indent | dedent => rfl
  | line | blank | flush | anchor => exact congrArg (scheduledLines · rest) hflush

theorem isAnchored_cons (session : Session) {op : Op} {rest : List Op}
    (h : isAnchored session.anchors.length (op :: rest) = true) :
    isAnchored (session.perform op).anchors.length rest = true := by
  cases op with
  | insertBefore number text =>
    rw [Session.perform]
    split
    · exact (Bool.and_eq_true_iff.mp h).2
    · exact (Bool.and_eq_true_iff.mp h).2
  | anchor =>
    have hlength : (session.perform .anchor).anchors.length = session.anchors.length + 1 := List.length_append
    rwa [hlength]
  | _ => exact h

/-- What is scheduled by a run has the positions that the anchors have at its end. -/
theorem scheduled_run (session : Session) {ops : List Op} (h : isAnchored session.anchors.length ops = true) :
    (session.run ops).emitter.scheduled.toList = session.emitter.scheduled.toList ++
      (scheduledLines session.emitter.depth ops).map fun entry => ((session.run ops).positionOf entry.1, entry.2) := by
  induction ops generalizing session with
  | nil => simp [Session.run, scheduledLines]
  | cons op rest ih =>
    have hstep : session.run (op :: rest) = (session.perform op).run rest := rfl
    have hrest := ih (session.perform op) (isAnchored_cons session h)
    rw [hstep, hrest]
    by_cases hop : op.isInsertion = false
    · rw [scheduled_perform session hop, scheduledLines_cons session hop]
    · cases op with
      | insertBefore number text =>
        have hlt : number < session.anchors.length := of_decide_eq_true (Bool.and_eq_true_iff.mp h).1
        have hperform : session.perform (.insertBefore number text) =
            { session with emitter := session.emitter.insertBefore session.anchors[number] text } := by
          rw [Session.perform, List.getElem?_eq_getElem hlt]
        have hposition : ((session.perform (.insertBefore number text)).run rest).positionOf number =
            session.anchors[number].position := by
          have hkept : number < (session.perform (.insertBefore number text)).anchors.length := by rwa [hperform]
          rw [positionOf_run _ hkept, hperform, Session.positionOf, List.getElem?_eq_getElem hlt]
          rfl
        rw [scheduledLines, List.map_cons, hposition, hperform]
        simp [insertBefore]
      | _ => exact absurd rfl hop

/-! ### Placing -/

theorem linesFor_eq {entries : List (Nat × String)} {positionOf : Nat → Nat} {numbers : List Nat} {p : Nat → Bool}
    (h : ∀ entry ∈ entries, p (positionOf entry.1) = true ↔ entry.1 ∈ numbers) :
    ((entries.map fun entry => (positionOf entry.1, entry.2)).filter fun entry => p entry.1).map Prod.snd =
      linesFor entries numbers := by
  rw [linesFor, List.filter_map, List.map_map]
  have hfilter : entries.filter ((fun entry => p entry.1) ∘ fun entry => (positionOf entry.1, entry.2)) =
      entries.filter fun entry => decide (entry.1 ∈ numbers) := by
    refine List.filter_congr fun entry hentry => ?_
    rw [Function.comp_apply, Bool.eq_iff_iff, h entry hentry, decide_eq_true_eq]
  rw [hfilter]
  rfl

/-- Lines that are woven in at positions are placed at the marks with these positions. -/
theorem weave_eq_placed {entries : List (Nat × String)} {positionOf : Nat → Nat} {numbers : List Nat}
    {rows : List Row} {position : Nat} (hnumbers : ∀ number ∈ numbers, positionOf number = position)
    (hmarked : ∀ mark ∈ marked position rows, positionOf mark.1 = mark.2)
    (hentries : ∀ entry ∈ entries, positionOf entry.1 < position ∨ entry.1 ∈ numbers ∨
      ∃ mark ∈ marked position rows, mark.1 = entry.1) :
    weave (entries.map fun entry => (positionOf entry.1, entry.2)) position (texts rows) =
      placed entries numbers rows := by
  induction rows generalizing position numbers with
  | nil =>
    refine linesFor_eq (p := fun other => decide (position ≤ other)) fun entry hentry => ?_
    rw [decide_eq_true_eq]
    constructor
    · intro hle
      rcases hentries entry hentry with hlt | hnumber | ⟨_, hmark, _⟩
      · omega
      · exact hnumber
      · cases hmark
    · intro hnumber
      exact Nat.le_of_eq (hnumbers _ hnumber).symm
  | cons row rest ih =>
    -- ahead of a line stands what is scheduled for the numbers seen since the last one
    have hline : (∀ mark ∈ marked (position + 1) rest, positionOf mark.1 = mark.2) →
        (∀ entry ∈ entries, positionOf entry.1 < position ∨ entry.1 ∈ numbers ∨
          ∃ mark ∈ marked (position + 1) rest, mark.1 = entry.1) → ∀ text,
        weave (entries.map fun entry => (positionOf entry.1, entry.2)) position (text :: texts rest) =
          linesFor entries numbers ++ text :: placed entries [] rest := by
      intro hmarked hentries text
      have hhere : ∀ entry ∈ entries, decide (positionOf entry.1 = position) = true ↔ entry.1 ∈ numbers := by
        intro entry hentry
        rw [decide_eq_true_eq]
        constructor
        · intro heq
          rcases hentries entry hentry with hlt | hnumber | ⟨mark, hmark, hmarkEq⟩
          · omega
          · exact hnumber
          · have hle := (le_of_mem_marked hmark).1
            rw [← hmarked mark hmark, hmarkEq] at hle
            omega
        · exact hnumbers entry.1
      rw [weave, linesFor_eq (p := fun other => decide (other = position)) hhere]
      congr 2
      refine ih (List.forall_mem_nil _) hmarked fun entry hentry => ?_
      rcases hentries entry hentry with hlt | hnumber | hmark
      · exact Or.inl (by omega)
      · have heq := hnumbers _ hnumber
        exact Or.inl (by omega)
      · exact Or.inr (Or.inr hmark)
    cases row with
    | mark number =>
      obtain ⟨hnumber, hrest⟩ := List.forall_mem_cons.mp hmarked
      rw [texts_mark, placed]
      refine ih ?_ hrest fun entry hentry => ?_
      · exact List.forall_mem_append.mpr ⟨hnumbers, List.forall_mem_singleton.mpr hnumber⟩
      · rcases hentries entry hentry with hlt | hmem | ⟨mark, hmark, heq⟩
        · exact Or.inl hlt
        · exact Or.inr (Or.inl (List.mem_append_left _ hmem))
        · rcases List.mem_cons.mp hmark with rfl | hmark
          · exact Or.inr (Or.inl (List.mem_append_right _ (List.mem_singleton.mpr heq.symm)))
          · exact Or.inr (Or.inr ⟨mark, hmark, heq⟩)
    | line depth text => exact hline hmarked hentries _
    | empty => exact hline hmarked hentries _

/-! ### Weaving -/

/-- Weaving keeps every line, and every entry whose position is still to come. -/
theorem weave_perm (scheduled : List (Nat × String)) (position : Nat) (lines : List String) :
    (weave scheduled position lines).Perm
      (lines ++ (scheduled.filter fun entry => position ≤ entry.1).map Prod.snd) := by
  induction lines generalizing position with
  | nil => exact List.Perm.refl _
  | cons text rest ih =>
    -- what is to come is what comes here and what comes later
    have hsplit := List.filter_append_perm (fun entry : Nat × String => decide (entry.1 = position))
      (scheduled.filter fun entry => position ≤ entry.1)
    have hhere : (scheduled.filter fun entry => position ≤ entry.1).filter (fun entry => entry.1 = position) =
        scheduled.filter fun entry => entry.1 = position := by
      rw [List.filter_filter]
      refine List.filter_congr fun entry _ => ?_
      rw [Bool.eq_iff_iff, Bool.and_eq_true, decide_eq_true_eq, decide_eq_true_eq]
      omega
    have hlater : ((scheduled.filter fun entry => position ≤ entry.1).filter
        fun entry => !decide (entry.1 = position)) = scheduled.filter fun entry => position + 1 ≤ entry.1 := by
      rw [List.filter_filter]
      refine List.filter_congr fun entry _ => ?_
      rw [Bool.eq_iff_iff, Bool.and_eq_true, Bool.not_eq_true', decide_eq_true_eq, decide_eq_true_eq,
        decide_eq_false_iff_not]
      omega
    rw [hhere, hlater] at hsplit
    have hentries := hsplit.map Prod.snd
    rw [List.map_append] at hentries
    exact (((ih (position + 1)).cons text).append_left _).trans
      ((List.perm_append_comm_assoc _ (text :: rest) _).trans (hentries.append_left _))

theorem sublist_weave (scheduled : List (Nat × String)) (position : Nat) (lines : List String) :
    lines.Sublist (weave scheduled position lines) := by
  induction lines generalizing position with
  | nil => exact List.nil_sublist _
  | cons text rest ih => exact ((ih (position + 1)).cons_cons text).trans (List.sublist_append_right ..)

/-- Only the order within a position matters, if no position is beyond the last line. -/
theorem weave_congr {first second : List (Nat × String)} {position : Nat} {lines : List String}
    (h : ∀ other, first.filter (·.1 = other) = second.filter (·.1 = other))
    (hfirst : ∀ entry ∈ first, entry.1 ≤ position + lines.length)
    (hsecond : ∀ entry ∈ second, entry.1 ≤ position + lines.length) :
    weave first position lines = weave second position lines := by
  induction lines generalizing position with
  | nil =>
    have hlast : ∀ entries : List (Nat × String), (∀ entry ∈ entries, entry.1 ≤ position) →
        entries.filter (position ≤ ·.1) = entries.filter (·.1 = position) := by
      intro entries hentries
      refine List.filter_congr fun entry hentry => ?_
      have hle := hentries entry hentry
      rw [decide_eq_decide]
      omega
    rw [weave, weave, hlast first hfirst, hlast second hsecond, h position]
  | cons text rest ih =>
    rw [List.length_cons] at hfirst hsecond
    rw [weave, weave, h position, ih]
    · exact fun entry hentry => by have := hfirst entry hentry; omega
    · exact fun entry hentry => by have := hsecond entry hentry; omega

/-! ### Sessions from the start -/

/-- The operations without those that schedule lines. -/
def plain : List Op → List Op
  | [] => []
  | .insertBefore _ _ :: rest => plain rest
  | op :: rest => op :: plain rest

theorem pushed_plain (ops : List Op) : pushed (plain ops) = pushed ops := by
  induction ops with
  | nil => rfl
  | cons op rest ih => cases op <;> simp [plain, pushed, ih]

/-- Scheduled lines have no rows. -/
theorem rows_plain (depth taken : Nat) (opened : Bool) (ops : List Op) :
    rows depth taken opened (plain ops) = rows depth taken opened ops := by
  induction ops generalizing depth taken opened with
  | nil => rfl
  | cons op rest ih => cases op <;> simp [plain, rows, ih, pushed_plain]

theorem scheduledLines_plain (depth : Nat) (ops : List Op) : scheduledLines depth (plain ops) = [] := by
  induction ops generalizing depth with
  | nil => rfl
  | cons op rest ih => cases op <;> simp [plain, scheduledLines, ih]

theorem isAnchored_plain (taken : Nat) (ops : List Op) : isAnchored taken (plain ops) = true := by
  induction ops generalizing taken with
  | nil => rfl
  | cons op rest ih => cases op <;> simp [plain, isAnchored, ih]

theorem lt_of_mem_scheduledLines {depth taken : Nat} {ops : List Op} (h : isAnchored taken ops = true) :
    ∀ entry ∈ scheduledLines depth ops, entry.1 < taken + ops.countP Op.isAnchor := by
  induction ops generalizing depth taken with
  | nil => exact List.forall_mem_nil _
  | cons op rest ih =>
    cases op with
    | insertBefore number text =>
      obtain ⟨hnumber, hrest⟩ := Bool.and_eq_true_iff.mp h
      have hlt : number < taken := of_decide_eq_true hnumber
      refine List.forall_mem_cons.mpr ⟨?_, ih hrest⟩
      dsimp only
      omega
    | anchor =>
      intro entry hentry
      have hlt := ih h entry hentry
      rw [List.countP_cons_of_pos rfl]
      omega
    | _ => exact ih h

section

variable {ops : List Op}

theorem finish_eq (emitter : Emitter) :
    emitter.finish = weave emitter.scheduled.toList 0 emitter.flush.lines.toList := by
  rw [finish, scheduled_flush]

theorem lines_start (ops : List Op) :
    (Session.start.run ops).emitter.flush.lines.toList = texts (rows 0 0 false ops) := by
  rw [lines_run]
  rfl

theorem scheduled_start (h : isAnchored 0 ops = true) : (Session.start.run ops).emitter.scheduled.toList =
    (scheduledLines 0 ops).map fun entry => ((Session.start.run ops).positionOf entry.1, entry.2) := by
  rw [scheduled_run Session.start h]
  rfl

theorem anchors_start (ops : List Op) :
    (Session.start.run ops).anchors = (marked 0 (rows 0 0 false ops)).map (⟨·.2⟩) := by
  rw [anchors_run]
  rfl

/-- An anchor has the position of its mark. -/
theorem positionOf_start {mark : Nat × Nat} (h : mark ∈ marked 0 (rows 0 0 false ops)) :
    (Session.start.run ops).positionOf mark.1 = mark.2 := by
  obtain ⟨i, hi, rfl⟩ := List.getElem_of_mem h
  have hget : ((marked 0 (rows 0 0 false ops)).map Prod.fst)[i]? = some (marked 0 (rows 0 0 false ops))[i].1 := by
    simp [hi]
  have hlength : i < ((marked 0 (rows 0 0 false ops)).map Prod.fst).length := by simpa using hi
  rw [map_fst_marked, List.length_range'] at hlength
  rw [map_fst_marked, List.getElem?_range' hlength, Option.some_inj] at hget
  rw [Session.positionOf, anchors_start, ← hget]
  simp [hi]

/-- Lines are scheduled for anchors that are marked. -/
theorem exists_mark (h : isAnchored 0 ops = true) :
    ∀ entry ∈ scheduledLines 0 ops, ∃ mark ∈ marked 0 (rows 0 0 false ops), mark.1 = entry.1 := by
  intro entry hentry
  have hlt := lt_of_mem_scheduledLines h entry hentry
  have hmem : entry.1 ∈ (marked 0 (rows 0 0 false ops)).map Prod.fst := by
    rw [map_fst_marked, List.mem_range'_1]
    omega
  exact List.mem_map.mp hmem

/-- No line is scheduled for a position beyond the last line. -/
theorem le_of_mem_scheduled (h : isAnchored 0 ops = true) :
    ∀ entry ∈ (Session.start.run ops).emitter.scheduled.toList, entry.1 ≤ (texts (rows 0 0 false ops)).length := by
  rw [scheduled_start h]
  refine List.forall_mem_map.mpr fun entry hentry => ?_
  obtain ⟨mark, hmark, heq⟩ := exists_mark h entry hentry
  have hle := (le_of_mem_marked hmark).2
  rw [← heq, positionOf_start hmark]
  omega

theorem finish_eq_placed (h : isAnchored 0 ops = true) :
    (Session.start.run ops).emitter.finish = placed (scheduledLines 0 ops) [] (rows 0 0 false ops) := by
  rw [finish_eq, lines_start, scheduled_start h]
  refine weave_eq_placed (List.forall_mem_nil _) (fun mark hmark => positionOf_start hmark) fun entry hentry => ?_
  exact Or.inr (Or.inr (exists_mark h entry hentry))

theorem finish_plain (ops : List Op) :
    (Session.start.run (plain ops)).emitter.finish = texts (rows 0 0 false ops) := by
  rw [finish_eq, scheduled_start (isAnchored_plain 0 ops), scheduledLines_plain, List.map_nil, weave_nil, lines_start,
    rows_plain]

theorem size_eq (emitter : Emitter) : emitter.size = emitter.flush.lines.size := by
  cases hfragment : emitter.fragment with
  | none => simp [size, flush, hfragment]
  | some text => simp [size, flush, hfragment]

/-- The number of lines is that of the lines without the scheduled ones. -/
theorem size_run (ops : List Op) :
    (Session.start.run ops).emitter.size = (Session.start.run (plain ops)).emitter.finish.length := by
  rw [finish_plain, ← lines_start, Array.length_toList, size_eq]

/-- Two insertions next to each other have their lines next to each other. -/
theorem scheduledLines_swap (depth : Nat) (before after : List Op) (number other : Nat) (text otherText : String) :
    ∃ front first second back,
      scheduledLines depth (before ++ .insertBefore number text :: .insertBefore other otherText :: after) =
          front ++ (number, first) :: (other, second) :: back ∧
        scheduledLines depth (before ++ .insertBefore other otherText :: .insertBefore number text :: after) =
          front ++ (other, second) :: (number, first) :: back := by
  induction before generalizing depth with
  | nil => exact ⟨[], indented depth text, indented depth otherText, scheduledLines depth after, rfl, rfl⟩
  | cons op rest ih =>
    cases op with
    | insertBefore earlier earlierText =>
      obtain ⟨front, first, second, back, hlines, hswapped⟩ := ih depth
      refine ⟨(earlier, indented depth earlierText) :: front, first, second, back, ?_, ?_⟩
      · rw [List.cons_append, scheduledLines, hlines, List.cons_append]
      · rw [List.cons_append, scheduledLines, hswapped, List.cons_append]
    | indent => exact ih (depth + 1)
    | dedent => exact ih (depth - 1)
    | _ => exact ih depth

theorem plain_append (first second : List Op) : plain (first ++ second) = plain first ++ plain second := by
  induction first with
  | nil => rfl
  | cons op rest ih => cases op <;> simp [plain, ih]

theorem isAnchored_append (taken : Nat) (first second : List Op) : isAnchored taken (first ++ second) =
    (isAnchored taken first && isAnchored (taken + first.countP Op.isAnchor) second) := by
  induction first generalizing taken with
  | nil => simp [isAnchored]
  | cons op rest ih =>
    cases op with
    | anchor =>
      have hcount : taken + (.anchor :: rest : List Op).countP Op.isAnchor = taken + 1 + rest.countP Op.isAnchor := by
        rw [List.countP_cons_of_pos rfl]
        omega
      rw [List.cons_append, isAnchored, ih, isAnchored, hcount]
    | _ => simp [isAnchored, ih, Op.isAnchor, Bool.and_assoc]

theorem length_anchors (ops : List Op) : (Session.start.run ops).anchors.length = ops.countP Op.isAnchor := by
  have hfst := congrArg List.length (map_fst_marked 0 0 0 false ops)
  rw [List.length_map, List.length_range'] at hfst
  rw [anchors_start, List.length_map, hfst]

/-- Lines scheduled one after the other for different positions can be scheduled in either order. -/
theorem finish_swap {before after : List Op} {number other : Nat} {text otherText : String}
    (h : isAnchored 0 (before ++ .insertBefore number text :: .insertBefore other otherText :: after) = true)
    (hne : (Session.start.run before).positionOf number ≠ (Session.start.run before).positionOf other) :
    (Session.start.run (before ++ .insertBefore other otherText :: .insertBefore number text :: after)).emitter.finish =
      (Session.start.run
        (before ++ .insertBefore number text :: .insertBefore other otherText :: after)).emitter.finish := by
  obtain ⟨hbefore, hrest⟩ := Bool.and_eq_true_iff.mp ((isAnchored_append ..).symm.trans h)
  obtain ⟨hnumber, hrest⟩ := Bool.and_eq_true_iff.mp hrest
  obtain ⟨hother, hafter⟩ := Bool.and_eq_true_iff.mp hrest
  obtain ⟨front, first, second, back, hlines, hlinesSwapped⟩ :=
    scheduledLines_swap 0 before after number other text otherText
  have hplain : plain (before ++ .insertBefore other otherText :: .insertBefore number text :: after) =
      plain (before ++ .insertBefore number text :: .insertBefore other otherText :: after) := by
    rw [plain_append, plain_append]
    rfl
  have hswapped : isAnchored 0
      (before ++ .insertBefore other otherText :: .insertBefore number text :: after) = true := by
    rw [isAnchored_append, hbefore, Bool.true_and, isAnchored, isAnchored, hother, hnumber, hafter]
    rfl
  -- the anchors stand where they stood before
  have hkept : ∀ {k : Nat}, k < (Session.start.run before).anchors.length → (Session.start.run
      (before ++ .insertBefore number text :: .insertBefore other otherText :: after)).positionOf k =
        (Session.start.run before).positionOf k := by
    intro k hk
    rw [Session.run, List.foldl_append]
    exact positionOf_run _ hk _
  have hlength : (Session.start.run before).anchors.length = 0 + before.countP Op.isAnchor := by
    rw [length_anchors, Nat.zero_add]
  rw [← hkept (hlength ▸ of_decide_eq_true hnumber), ← hkept (hlength ▸ of_decide_eq_true hother)] at hne
  generalize before ++ .insertBefore other otherText :: .insertBefore number text :: after = swapped at *
  generalize before ++ .insertBefore number text :: .insertBefore other otherText :: after = ops at *
  have hrows : rows 0 0 false swapped = rows 0 0 false ops := by
    rw [← rows_plain 0 0 false swapped, hplain, rows_plain]
  have hposition : (Session.start.run swapped).positionOf = (Session.start.run ops).positionOf := by
    funext k
    rw [Session.positionOf, anchors_start, hrows, ← anchors_start, ← Session.positionOf]
  have hbound := le_of_mem_scheduled h
  have hboundSwapped := le_of_mem_scheduled hswapped
  rw [hrows] at hboundSwapped
  rw [finish_eq, finish_eq, lines_start, lines_start, hrows]
  refine weave_congr (fun position => ?_) (by simpa using hboundSwapped) (by simpa using hbound)
  rw [scheduled_start hswapped, scheduled_start h, hlines, hlinesSwapped, hposition]
  simp only [List.map_append, List.map_cons, List.filter_append, List.filter_cons]
  by_cases hfirst : (Session.start.run ops).positionOf number = position
  · have hother : (Session.start.run ops).positionOf other ≠ position := fun heq => hne (hfirst.trans heq.symm)
    simp [hfirst, hother]
  · simp [hfirst]

end

/-! ### Finished sessions -/

theorem finish_perm {ops : List Op} (h : isAnchored 0 ops = true) : (Session.start.run ops).emitter.finish.Perm
    (texts (rows 0 0 false ops) ++ (scheduledLines 0 ops).map Prod.snd) := by
  have hperm := weave_perm (Session.start.run ops).emitter.scheduled.toList 0 (texts (rows 0 0 false ops))
  rw [← lines_start, ← finish_eq, List.filter_eq_self.mpr (fun _ _ => by simp), scheduled_start h,
    List.map_map] at hperm
  rwa [← lines_start]

/-- What the operations finish with. -/
structure FinishLaws (ops : List Op) : Prop where
  /-- Ahead of a line, or last, stands what is scheduled for the anchors that are marked since the line before. -/
  inPlace : (Session.start.run ops).emitter.finish = placed (scheduledLines 0 ops) [] (rows 0 0 false ops)
  /-- Nothing is lost and nothing repeated. -/
  perm : (Session.start.run ops).emitter.finish.Perm
    (texts (rows 0 0 false ops) ++ (scheduledLines 0 ops).map Prod.snd)
  /-- Lines and fragments are in order. -/
  sublist : (texts (rows 0 0 false ops)).Sublist (Session.start.run ops).emitter.finish
  unscheduled : (Session.start.run (plain ops)).emitter.finish = texts (rows 0 0 false ops)
  size : (Session.start.run ops).emitter.size = (Session.start.run (plain ops)).emitter.finish.length
  /-- Insertions at different positions commute. -/
  swap : ∀ before number text other otherText after,
    ops = before ++ .insertBefore number text :: .insertBefore other otherText :: after →
    (Session.start.run before).positionOf number ≠ (Session.start.run before).positionOf other →
    (Session.start.run (before ++ .insertBefore other otherText :: .insertBefore number text :: after)).emitter.finish =
      (Session.start.run ops).emitter.finish

/-- Whatever lines, fragments and anchors come in between, scheduled lines go to their places and nothing else moves. -/
theorem finish_run {ops : List Op} (h : isAnchored 0 ops = true) : FinishLaws ops where
  inPlace := finish_eq_placed h
  perm := finish_perm h
  sublist := by
    rw [finish_eq, lines_start]
    exact sublist_weave ..
  unscheduled := finish_plain ops
  size := size_run ops
  swap := by
    rintro before number text other otherText after rfl hne
    exact finish_swap h hne

/-- A class with a method whose line is a fragment; the second anchor ends the fragment. -/
def methodOps : List Op :=
  [.line "class A:", .indent, .anchor, .push "def f(self", .indent, .push "): ...", .dedent, .anchor, .blank 1]

/-- A second line for the first anchor, and an anchor that no line follows. -/
def closingOps : List Op :=
  [.dedent, .insertBefore 0 "# overloaded", .line "x = 1", .anchor, .insertBefore 2 "# end"]

theorem finish_methodOps :
    isAnchored 0 (methodOps ++ .insertBefore 1 "pass" :: .insertBefore 0 "@overload" :: closingOps) = true ∧
      FinishLaws (methodOps ++ .insertBefore 1 "pass" :: .insertBefore 0 "@overload" :: closingOps) ∧
      (Session.start.run
        (methodOps ++ .insertBefore 0 "@overload" :: .insertBefore 1 "pass" :: closingOps)).emitter.finish =
        ["class A:", "    @overload", "# overloaded", "    def f(self): ...", "    pass", "", "x = 1", "# end"] := by
  have hanchored :
      isAnchored 0 (methodOps ++ .insertBefore 1 "pass" :: .insertBefore 0 "@overload" :: closingOps) = true := rfl
  have hlaws := finish_run hanchored
  have hne : (Session.start.run methodOps).positionOf 1 ≠ (Session.start.run methodOps).positionOf 0 := by decide
  refine ⟨hanchored, hlaws, ?_⟩
  rw [hlaws.swap methodOps 1 "pass" 0 "@overload" closingOps rfl hne, hlaws.inPlace]
  decide

end StubGen.Emitter
