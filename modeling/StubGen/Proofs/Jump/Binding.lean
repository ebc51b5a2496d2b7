import StubGen.Proofs.Jump.Code
import StubGen.Proofs.Switch.Lowering

/-!
# The loops of jumps

A jump in the output belongs to the same loop as in the source: the code of a statement has no `break` or `continue`
outside of its own loops, but for those of the statement that are bound to the loop around it.

* `jumpsWithin_writeSwitch` and its like follow the writers of statements with parts.
* `KeepsJumps` is the invariant; `everywhere_keepsJumps` proves it for all statements of a tree at once, since an arm of
  a switch has statements from further down.
* `loopLevel_writeStmt` says what the invariant means for the lines of the output.
-/

namespace StubGen.CUnit

open Traced

variable {options : UnitOptions} {context : Context} {allowed : Jumps} {code : List Code}

/-! ### Jumps of parts -/

/-- The statements that a block or a label holds. -/
def Node.listed : Node → List Node
  | .block items => items
  | .caseLabel _ stmts | .defaultLabel stmts => stmts
  | _ => []

theorem mem_parts_of_listed {stmt part : Node} (h : part ∈ stmt.listed) : part ∈ stmt.parts := by
  unfold Node.listed at h
  split at h
  · exact h
  · exact List.mem_cons_of_mem _ h
  · exact h
  · cases h

private theorem containsJump_of_listed {jumps : Jumps} {stmt part : Node} (h : part ∈ stmt.listed)
    (hjump : containsJump jumps part = true) : containsJump jumps stmt = true := by
  unfold Node.listed at h
  split at h
  · rw [containsJump, anyContainsJump_eq_any]
    exact List.any_eq_true.mpr ⟨part, h, hjump⟩
  · rw [containsJump, anyContainsJump_eq_any]
    exact List.any_eq_true.mpr ⟨part, h, hjump⟩
  · rw [containsJump, anyContainsJump_eq_any]
    exact List.any_eq_true.mpr ⟨part, h, hjump⟩
  · cases h

theorem of_mem_flatten {P : Node → Prop} (hlisted : ∀ node, P node → ∀ part ∈ node.listed, P part)
    {stmts : List Node} (h : ∀ stmt ∈ stmts, P stmt) : ∀ stmt ∈ flatten stmts, P stmt := by
  revert h
  apply flatten.induct (fun stmt => P stmt → ∀ other ∈ opened stmt, P other)
    (fun stmts => (∀ stmt ∈ stmts, P stmt) → ∀ stmt ∈ flatten stmts, P stmt)
  case case1 => exact fun items ih h => ih fun item hitem => hlisted _ h item hitem
  case case2 =>
    intro stmt hplain h other hother
    rw [opened] at hother
    · obtain rfl := List.mem_singleton.mp hother
      exact h
    · exact hplain
  case case3 =>
    intro _ stmt hstmt
    cases hstmt
  case case4 =>
    intro stmt rest ihstmt ihrest h other hother
    rcases List.mem_append.mp hother with hother | hother
    · exact ihstmt (h stmt (List.mem_cons_self ..)) other hother
    · exact ihrest (fun next hnext => h next (List.mem_cons_of_mem stmt hnext)) other hother

/-- What passes from a node to the statements that it holds passes to the statements of a switch. -/
theorem of_mem_partsOf {P : Node → Prop} (hlisted : ∀ node, P node → ∀ part ∈ node.listed, P part)
    {items : List Node} (h : ∀ item ∈ items, P item) {stmt : Node} (hstmt : .stmt stmt ∈ partsOf items) : P stmt := by
  have hrest : ∀ {first rest}, (∀ item ∈ first :: rest, P item) → ∀ item ∈ rest, P item :=
    fun h item hitem => h item (List.mem_cons_of_mem _ hitem)
  induction items using partsOf.induct with
  | case1 => cases hstmt
  | case2 label stmts rest ih =>
    rw [partsOf, List.mem_append, List.mem_cons] at hstmt
    rcases hstmt with (hstmt | hstmt) | hstmt
    · cases hstmt
    · obtain ⟨other, hother, heq⟩ := List.mem_map.mp hstmt
      cases heq
      exact of_mem_flatten hlisted (hlisted _ (h _ (List.mem_cons_self ..))) _ hother
    · exact ih (hrest h) hstmt
  | case3 stmts rest ih =>
    rw [partsOf, List.mem_append, List.mem_cons] at hstmt
    rcases hstmt with (hstmt | hstmt) | hstmt
    · cases hstmt
    · obtain ⟨other, hother, heq⟩ := List.mem_map.mp hstmt
      cases heq
      exact of_mem_flatten hlisted (hlisted _ (h _ (List.mem_cons_self ..))) _ hother
    · exact ih (hrest h) hstmt
  | case4 item rest hcase hdefault ih =>
    rw [partsOf, List.mem_cons] at hstmt
    · rcases hstmt with hstmt | hstmt
      · cases hstmt
        exact h _ (List.mem_cons_self ..)
      · exact ih (hrest h) hstmt
    · exact hcase
    · exact hdefault

namespace JumpsWithin

/-- A part has no jump that the statement does not have. -/
theorem of_part {part stmt : Node} (h : JumpsWithin (jumpsOf context part) code)
    (hpart : ∀ jumps, containsJump jumps part = true → containsJump jumps stmt = true) :
    JumpsWithin (jumpsOf context stmt) code := by
  refine h.mono (fun hbreaks => ?_) (hpart _)
  rw [jumpsOf, Bool.and_eq_true] at hbreaks ⊢
  exact ⟨hpart _ hbreaks.1, hbreaks.2⟩

/-- Parts without jumps have none in their code. -/
theorem of_jumpless {part : Node} (h : JumpsWithin (jumpsOf context part) code)
    (hpart : containsJump .both part = false) : JumpsWithin allowed code := by
  obtain ⟨hbreak, hcontinue⟩ := containsJump_both hpart
  refine h.mono (fun hbreaks => ?_) (fun hcontinues => ?_)
  · rw [jumpsOf, hbreak] at hbreaks
    cases hbreaks
  · rw [jumpsOf, hcontinue] at hcontinues
    cases hcontinues

/-- The suite of a loop keeps all jumps. -/
theorem loop {header : String} (h : isLoopHeader header.toList = true) (body : List Code) :
    JumpsWithin allowed [.suite header body] := by
  refine suite ?_ fun hother => ?_
  · rw [isLoopHeader, Bool.and_eq_true, decide_eq_true_eq] at h
    rw [endsPlain, h.2]
    rfl
  · rw [h] at hother
    cases hother

end JumpsWithin

/-! ### Switches -/

/-- The statements write only jumps that are allowed. -/
def WritesWithin (allowed : Jumps) (body : List (Written TracedCode)) : Prop :=
  ∀ written ∈ body, ∀ code, written.code.result = .ok code → JumpsWithin allowed code

private theorem jumpsWithin_sequence {body : List (Written TracedCode)} (h : WritesWithin allowed body)
    (hcode : (sequence body).result = .ok code) : JumpsWithin allowed code := by
  induction body generalizing code with
  | nil =>
    cases hcode
    exact .nil
  | cons written rest ih =>
    obtain ⟨first, hfirst, hcode⟩ := bind_eq_ok.mp hcode
    obtain ⟨others, hothers, hcode⟩ := bind_eq_ok.mp hcode
    cases hcode
    exact .append (h written (List.mem_cons_self ..) first hfirst)
      (ih (fun other hother => h other (List.mem_cons_of_mem written hother)) hothers)

private theorem IsHeader.endsPlain {reduce : Bool} {cond : Node} {test : Test} {header : String}
    (h : IsHeader reduce cond test header) : endsPlain header = true := by
  cases h with
  | always => decide
  | among => exact endsPlain_append _ (by decide) (by decide)
  | guard => exact endsPlain_append _ (by decide) (by decide)

private theorem jumpsWithin_writeMatch {reduce : Bool} {cond : Node} {arms : List (Arm TracedCode)}
    (h : ∀ arm ∈ arms, WritesWithin allowed arm.body) (hcode : (writeMatch reduce cond arms).result = .ok code) :
    JumpsWithin allowed code := by
  obtain ⟨subject, -, hcode⟩ := bind_eq_ok.mp hcode
  obtain ⟨suites, hsuites, hcode⟩ := bind_eq_ok.mp hcode
  cases hcode
  refine .suite (endsPlain_append _ (by decide) (by decide)) fun _ => .of_forall fun suite hsuite => ?_
  obtain ⟨arm, harm, hresult⟩ := exists_of_mapM_eq_ok hsuites suite hsuite
  obtain ⟨header, hheader, hresult⟩ := bind_eq_ok.mp hresult
  obtain ⟨body, hbody, hresult⟩ := bind_eq_ok.mp hresult
  cases hresult
  have hwithin := jumpsWithin_sequence (h arm (mem_of_mem_matchOrder harm)) hbody
  exact .suite (isHeader_caseHeader hheader).endsPlain fun _ => hwithin.orPass

private theorem jumpsWithin_writeChain {reduce first : Bool} {cond : Node}
    {entries : List (CaseLabel × List (Written TracedCode))}
    (h : ∀ entry ∈ entries, WritesWithin allowed entry.2)
    (hcode : (writeChain reduce cond first entries).result = .ok code) : JumpsWithin allowed code := by
  induction entries generalizing first code with
  | nil =>
    cases hcode
    exact .nil
  | cons entry rest ih =>
    obtain ⟨label, stmts⟩ := entry
    have hstmts := h _ (List.mem_cons_self ..)
    have hrest : ∀ entry ∈ rest, WritesWithin allowed entry.2 :=
      fun entry hentry => h entry (List.mem_cons_of_mem _ hentry)
    cases label with
    | value label =>
      obtain ⟨test, -, hcode⟩ := bind_eq_ok.mp hcode
      obtain ⟨body, hbody, hcode⟩ := bind_eq_ok.mp hcode
      obtain ⟨others, hothers, hcode⟩ := bind_eq_ok.mp hcode
      cases hcode
      have hwithin := jumpsWithin_sequence hstmts hbody
      exact .cons (.suite (endsPlain_append _ (by decide) (by decide)) fun _ => hwithin.orPass) (ih hrest hothers)
    | default =>
      obtain ⟨body, hbody, hcode⟩ := bind_eq_ok.mp hcode
      obtain ⟨others, hothers, hcode⟩ := bind_eq_ok.mp hcode
      cases hcode
      have hwithin := jumpsWithin_sequence hstmts hbody
      refine .append ?_ (ih hrest hothers)
      split
      · exact hwithin
      · exact .suite (by decide) fun _ => hwithin.orPass

/-- A switch has the jumps of its arms. -/
theorem jumpsWithin_writeSwitch {reduce : Bool} {cond : Node} {items : List (SwitchItem TracedCode)}
    (h : ∀ arms, (armsOf reduce items).result = .ok arms → ∀ arm ∈ arms, WritesWithin allowed arm.body)
    (hcode : (writeSwitch reduce cond items).result = .ok code) : JumpsWithin allowed code := by
  obtain ⟨arms, harms, hcode⟩ := bind_eq_ok.mp hcode
  have hwithin := h arms harms
  split at hcode
  · cases hcode
    exact .nil
  · split at hcode
    · obtain ⟨-, hchain⟩ := writeFallthrough_ok hcode
      refine jumpsWithin_writeChain (fun entry hentry written hwritten => ?_) hchain
      obtain ⟨arm, harm, hbody⟩ := exists_arm_of_mem_entries hentry hwritten
      exact hwithin arm harm written hbody
    · exact jumpsWithin_writeMatch hwithin hcode

/-! ### Branches and loops -/

private theorem jumpsWithin_writeIf {reduce after : Bool} {cond : Node} {whenTrue : Traced (List Code)}
    {whenFalse : Bool → Traced (List Code)}
    (htrue : ∀ code, whenTrue.result = .ok code → JumpsWithin allowed code)
    (hfalse : ∀ after code, (whenFalse after).result = .ok code → JumpsWithin allowed code)
    (hcode : (writeIf reduce after cond whenTrue whenFalse).result = .ok code) : JumpsWithin allowed code := by
  unfold writeIf at hcode
  split at hcode
  · split at hcode
    · obtain ⟨body, hbody, hcode⟩ := bind_eq_ok.mp hcode
      cases hcode
      exact (htrue body hbody).elseCode after
    · exact hfalse after code hcode
  · obtain ⟨test, -, hcode⟩ := bind_eq_ok.mp hcode
    obtain ⟨body, hbody, hcode⟩ := bind_eq_ok.mp hcode
    obtain ⟨rest, hrest, hcode⟩ := bind_eq_ok.mp hcode
    cases hcode
    exact .cons (.suite (endsPlain_append _ (by decide) (by decide)) fun _ => (htrue body hbody).orPass)
      (hfalse true rest hrest)

private theorem isLoopHeader_while (test : String) : isLoopHeader ("while " ++ test ++ ":").toList = true := by
  simp [isLoopHeader, List.getLast?_cons]

private theorem isLoopHeader_counting {reduce : Bool} {loop : Counting} {header : String}
    (h : (countingHeader reduce loop).result = .ok header) : isLoopHeader header.toList = true := by
  obtain ⟨start, -, h⟩ := bind_eq_ok.mp h
  obtain ⟨bound, -, h⟩ := bind_eq_ok.mp h
  cases h
  cases loop.direction <;> simp [isLoopHeader, List.getLast?_cons, List.getLast?_append]

private theorem jumpsWithin_writeWhile {reduce : Bool} {cond body : Node} {bodyCode : Traced (List Code)}
    (hcode : (writeWhile reduce cond body bodyCode).result = .ok code) : JumpsWithin allowed code := by
  simp only [writeWhile, bind_eq_ok, guard_eq_ok] at hcode
  obtain ⟨split, -, -, -, before, hbefore, test, -, body, -, after, -, hcode⟩ := hcode
  cases hcode
  refine .append (.of_forall fun line hline => ?_) (.loop (isLoopHeader_while test) _)
  obtain ⟨step, -, hresult⟩ := exists_of_mapM_eq_ok hbefore line hline
  exact jumpsWithin_writeStep hresult

private theorem jumpsWithin_writeSteppedLoop {reduce : Bool} {cond : Option Node}
    {bodyCode nextCode : Traced (List Code)}
    (hcode : (writeSteppedLoop reduce cond bodyCode nextCode).result = .ok code) : JumpsWithin allowed code := by
  cases cond with
  | none =>
    obtain ⟨body, -, hcode⟩ := bind_eq_ok.mp hcode
    obtain ⟨next, -, hcode⟩ := bind_eq_ok.mp hcode
    cases hcode
    exact .loop (by decide) _
  | some cond =>
    obtain ⟨test, -, hcode⟩ := bind_eq_ok.mp hcode
    obtain ⟨body, -, hcode⟩ := bind_eq_ok.mp hcode
    obtain ⟨next, -, hcode⟩ := bind_eq_ok.mp hcode
    cases hcode
    exact .suite (endsPlain_append _ (by decide) (by decide)) fun _ => .loop (by decide) _

/-- Ahead of the loop stands only what initializes it. -/
private theorem jumpsWithin_writeFor {reduce : Bool} {init cond next : Option Node} {body : Node}
    {initCode bodyCode nextCode : Traced (List Code)}
    (hinit : ∀ code, initCode.result = .ok code → JumpsWithin allowed code)
    (hcode : (writeFor reduce init cond next body initCode bodyCode nextCode).result = .ok code) :
    JumpsWithin allowed code := by
  rw [writeFor] at hcode
  generalize (do counting? (← init) (← cond) (← next) : Option Counting) = counting at hcode
  cases counting with
  | some loop =>
    obtain ⟨header, hheader, hcode⟩ := bind_eq_ok.mp hcode
    obtain ⟨body, -, hcode⟩ := bind_eq_ok.mp hcode
    cases hcode
    exact .loop (isLoopHeader_counting hheader) _
  | none =>
    obtain ⟨-, hcode⟩ := guard_eq_ok.mp hcode
    obtain ⟨initLines, hlines, hcode⟩ := bind_eq_ok.mp hcode
    split at hcode
    · obtain ⟨loop, hloop, hcode⟩ := bind_eq_ok.mp hcode
      cases hcode
      exact (hinit initLines hlines).append (jumpsWithin_writeWhile hloop)
    · obtain ⟨loop, hloop, hcode⟩ := bind_eq_ok.mp hcode
      cases hcode
      exact (hinit initLines hlines).append (jumpsWithin_writeSteppedLoop hloop)

private theorem jumpsWithin_writeDo {reduce : Bool} {cond body : Node} {bodyCode : Traced (List Code)}
    (hcode : (writeDo reduce cond body bodyCode).result = .ok code) : JumpsWithin allowed code := by
  simp only [writeDo, bind_eq_ok, guard_eq_ok] at hcode
  obtain ⟨-, test, -, body, -, hcode⟩ := hcode
  cases hcode
  exact .loop (by decide) _

/-! ### Statements -/

private theorem jumpsWithin_writeStmts {stmts : List Node}
    (h : ∀ stmt ∈ stmts, ∀ code, (writeStmt options context false stmt).result = .ok code → JumpsWithin allowed code)
    (hcode : (writeStmts options context stmts).result = .ok code) : JumpsWithin allowed code := by
  induction stmts generalizing code with
  | nil =>
    cases hcode
    exact .nil
  | cons stmt rest ih =>
    obtain ⟨first, hfirst, hcode⟩ := bind_eq_ok.mp hcode
    obtain ⟨others, hothers, hcode⟩ := bind_eq_ok.mp hcode
    cases hcode
    exact .append (h stmt (List.mem_cons_self ..) first hfirst)
      (ih (fun other hother => h other (List.mem_cons_of_mem stmt hother)) hothers)

/-- The code of the statement, wherever it stands, has only the jumps that the statement may leave in it. -/
def KeepsJumps (options : UnitOptions) (stmt : Node) : Prop :=
  ∀ context after code, (writeStmt options context after stmt).result = .ok code →
    JumpsWithin (jumpsOf context stmt) code

private theorem jumpsWithin_else {after : Bool} {piece : Traced (List Code)}
    (hcode : (do return elseCode after (← piece) : Traced (List Code)).result = .ok code)
    (h : ∀ code, piece.result = .ok code → JumpsWithin allowed code) : JumpsWithin allowed code := by
  obtain ⟨body, hbody, hcode⟩ := bind_eq_ok.mp hcode
  cases hcode
  exact (h body hbody).elseCode after

/-- A node in the body of a switch: the statements in it keep their jumps, and those that are not bound in it are jumps
of the body. -/
structure InBody (options : UnitOptions) (body node : Node) : Prop where
  keeps : Everywhere (KeepsJumps options) node
  jumps : ∀ jumps, containsJump jumps node = true → containsJump jumps body = true

private theorem InBody.listed {body node : Node} (h : InBody options body node) :
    ∀ part ∈ node.listed, InBody options body part :=
  fun part hpart =>
    ⟨h.keeps.parts part (mem_parts_of_listed hpart),
      fun jumps hjump => h.jumps jumps (containsJump_of_listed hpart hjump)⟩

private theorem keepsJumps_switch {cond body : Node} (h : Everywhere (KeepsJumps options) body) :
    KeepsJumps options (.switch cond body) := by
  intro context after code hcode
  have hbody : InBody options body body := ⟨h, fun _ hjump => hjump⟩
  have hitems : ∀ item ∈ switchItems body, InBody options body item := by
    unfold switchItems
    split
    · exact hbody.listed
    · intro item hitem
      rw [List.mem_singleton.mp hitem]
      exact hbody
  rw [writeStmt_switch] at hcode
  refine jumpsWithin_else hcode fun code hswitch => jumpsWithin_writeSwitch (fun arms harms arm harm => ?_) hswitch
  obtain ⟨hparts, hvalid⟩ := armsOf_parts harms
  intro written hwritten code hresult
  -- a statement of an arm may be several blocks below the body
  have hstmt : .stmt written.stmt ∈ partsOf (switchItems body) := by
    rw [hparts, List.mem_flatMap]
    exact ⟨arm, harm, List.mem_append_right _ (List.mem_map_of_mem hwritten)⟩
  obtain ⟨hkeeps, hjump⟩ := of_mem_partsOf (fun _ => InBody.listed) hitems hstmt
  rw [(hvalid arm harm).code_eq written hwritten] at hresult
  refine (hkeeps.self _ false code hresult).mono (fun hbreaks => ?_) fun hcontinues => ?_
  · -- a `break` is left out of the arms
    rw [jumpsOf, Bool.and_eq_true] at hbreaks
    cases hbreaks.2
  · rw [jumpsOf, containsJump]
    exact hjump _ hcontinues

/-- Everywhere in a tree over tokens with its jumps in place, the code of a statement has only its jumps. -/
theorem everywhere_keepsJumps {stmt : Node} (h : OverTokens stmt) (hplaces : JumpsInPlace stmt) :
    Everywhere (KeepsJumps options) stmt := by
  refine (Everywhere.and h hplaces).derive fun stmt hboth hparts => ?_
  have htokens : OverTokens stmt := hboth.mono fun _ => And.left
  have hheads : ∀ part ∈ stmt.headParts, containsJump .both part = false := hboth.self.2
  have hkeeps : ∀ part ∈ stmt.parts, KeepsJumps options part := fun part hpart => (hparts part hpart).self
  intro context after code hcode
  unfold writeStmt at hcode
  split at hcode
  case h_1 cond whenTrue =>
    refine jumpsWithin_writeIf (fun code hresult => ?_) (fun _ code hresult => ?_) hcode
    · exact (hkeeps whenTrue (by simp [Node.parts]) context false code hresult).of_part fun jumps hjump => hjump
    · cases hresult
      exact .nil
  case h_2 cond whenTrue whenFalse =>
    refine jumpsWithin_writeIf (fun code hresult => ?_) (fun after code hresult => ?_) hcode
    · refine (hkeeps whenTrue (by simp [Node.parts]) context false code hresult).of_part fun jumps hjump => ?_
      rw [containsJump, hjump, Bool.true_or]
    · refine (hkeeps whenFalse (by simp [Node.parts]) context after code hresult).of_part fun jumps hjump => ?_
      rw [containsJump, hjump, Bool.or_true]
  case h_3 items =>
    refine jumpsWithin_else hcode fun code hresult => jumpsWithin_writeStmts (fun part hpart code hcode => ?_) hresult
    exact (hkeeps part hpart context false code hcode).of_part fun jumps => containsJump_of_listed hpart
  case h_4 exprs =>
    -- the members of a comma list are no jumps
    refine jumpsWithin_else hcode fun code hresult => jumpsWithin_writeStmts (fun part hpart code hcode => ?_) hresult
    exact (hkeeps part hpart context false code hcode).of_jumpless (hheads part hpart)
  case h_5 label stmt =>
    obtain ⟨body, hbody, hcode⟩ := bind_eq_ok.mp hcode
    cases hcode
    refine (JumpsWithin.cons (.comment (by simp)) ?_).elseCode after
    exact (hkeeps stmt (by simp [Node.parts]) context false body hbody).of_part fun jumps hjump => hjump
  case h_6 init cond next body =>
    refine jumpsWithin_else hcode fun code hresult => jumpsWithin_writeFor (fun code hinit => ?_) hresult
    cases init with
    | none =>
      cases hinit
      exact .nil
    | some init =>
      have hpart : init ∈ (Node.forLoop (some init) cond next body).parts := by simp [Node.parts]
      exact (hkeeps init hpart context false code hinit).of_jumpless (hheads init (by simp [Node.headParts]))
  case h_7 cond body => exact jumpsWithin_else hcode fun code hresult => jumpsWithin_writeWhile hresult
  case h_8 cond body =>
    split at hcode
    · -- the body stands without a loop, and has no jump of its own
      rename_i honce
      rw [Bool.and_eq_true, Bool.not_eq_true'] at honce
      refine jumpsWithin_else hcode fun code hresult => ?_
      exact (hkeeps body (by simp [Node.parts]) context false code hresult).of_jumpless honce.2
    · exact jumpsWithin_else hcode fun code hresult => jumpsWithin_writeDo hresult
  case h_9 cond items => exact keepsJumps_switch (hparts _ (by simp [Node.parts])) context after code hcode
  case h_10 cond label stmts => exact keepsJumps_switch (hparts _ (by simp [Node.parts])) context after code hcode
  case h_11 cond stmts => exact keepsJumps_switch (hparts _ (by simp [Node.parts])) context after code hcode
  case h_12 cond body _ _ _ =>
    -- a body without labels is not accepted
    refine jumpsWithin_else hcode fun code hresult => jumpsWithin_writeSwitch (fun arms harms => ?_) hresult
    cases harms
  case h_13 => exact jumpsWithin_else hcode fun code hresult => jumpsWithin_writeSimple htokens hresult

/-! ### Lines -/

def Node.isLoop : Node → Bool
  | .forLoop .. | .whileLoop .. | .doLoop .. => true
  | _ => false

def Node.isSwitch : Node → Bool
  | .switch .. => true
  | _ => false

private theorem containsJump_loop {stmt : Node} (h : stmt.isLoop = true) (jumps : Jumps) :
    containsJump jumps stmt = false := by
  unfold Node.isLoop at h
  split at h
  · rfl
  · rfl
  · rfl
  · cases h

private theorem containsJump_switch {stmt : Node} (h : stmt.isSwitch = true) :
    containsJump .onlyBreak stmt = false := by
  unfold Node.isSwitch at h
  split at h
  · exact containsJump_none _
  · cases h

/-- The lines of a statement with its jumps in place have a `break` at loop level only if the statement has one bound to
the loop around it and the context keeps it, and a `continue` only if the statement has one.  So loops have no jumps at
loop level, and switches no `break`. -/
theorem loopLevel_writeStmt (options : UnitOptions) (context : Context) (after : Bool) (depth : Nat) {stmt : Node}
    {code : List Code} (h : OverTokens stmt) (hplaces : JumpsInPlace stmt)
    (hcode : (writeStmt options context after stmt).result = .ok code) :
    let lines := Code.allLinesAt depth code
    (LoopLevel "break" lines → containsJump .onlyBreak stmt = true ∧ context.skip.breaks = false) ∧
      (LoopLevel "continue" lines → containsJump .onlyContinue stmt = true) ∧
      (stmt.isLoop = true → ¬LoopLevel "break" lines ∧ ¬LoopLevel "continue" lines) ∧
      (stmt.isSwitch = true → ¬LoopLevel "break" lines) := by
  intro lines
  have hwithin := (everywhere_keepsJumps h hplaces).self context after code hcode
  have hbreak : LoopLevel "break" lines → containsJump .onlyBreak stmt = true ∧ context.skip.breaks = false := by
    intro hlevel
    obtain ⟨text, htext, hjump⟩ := exists_loose_of_loopLevel (by decide) depth code hlevel
    have hallowed := (hwithin text htext).1 hjump
    rwa [jumpsOf, Bool.and_eq_true, Bool.not_eq_true'] at hallowed
  have hcontinue : LoopLevel "continue" lines → containsJump .onlyContinue stmt = true := by
    intro hlevel
    obtain ⟨text, htext, hjump⟩ := exists_loose_of_loopLevel (by decide) depth code hlevel
    exact (hwithin text htext).2 hjump
  refine ⟨hbreak, hcontinue, fun hloop => ⟨fun hlevel => ?_, fun hlevel => ?_⟩, fun hswitch hlevel => ?_⟩
  · rw [containsJump_loop hloop] at hbreak
    cases (hbreak hlevel).1
  · rw [containsJump_loop hloop] at hcontinue
    cases hcontinue hlevel
  · rw [containsJump_switch hswitch] at hbreak
    cases (hbreak hlevel).1

/-- `while (x) { if (y) break; switch (x) { case 1: f(); break; default: continue; } }`. -/
def jumpingLoop : Node :=
  .whileLoop (.ident "x") (.block [
    .ifElse (.ident "y") .breakJump none,
    .switch (.ident "x") (.block [
      .caseLabel (.constant "int" "1") [.call (.ident "f") none, .breakJump],
      .defaultLabel [.continueJump]])])

private theorem overTokens_of_parts {node : Node} (hnames : node.names = []) (hconstants : node.constants = [])
    (h : ∀ part ∈ node.parts, OverTokens part) : OverTokens node :=
  .of_parts ⟨by simp [hnames], by simp [hconstants]⟩ h

/-- A node over tokens that is no comma list and has nothing to initialize, with such nodes below it. -/
private def Placed (node : Node) : Prop := OverTokens node ∧ JumpsInPlace node

private theorem placed_ident {name : String} (h : IsName name) : Placed (.ident name) :=
  ⟨.of_parts ⟨by simpa [Node.names] using h, by simp [Node.constants]⟩ (by simp [Node.parts]),
    .of_parts (by simp [Node.headParts]) (by simp [Node.parts])⟩

private theorem placed_of_parts {node : Node} (hnames : node.names = []) (hconstants : node.constants = [])
    (hheads : node.headParts = []) (h : ∀ part ∈ node.parts, Placed part) : Placed node :=
  ⟨overTokens_of_parts hnames hconstants fun part hpart => (h part hpart).1,
    .of_parts (by simp [hheads]) fun part hpart => (h part hpart).2⟩

private theorem placed_jumpingLoop : Placed jumpingLoop := by
  have hx : Placed (.ident "x") := placed_ident ⟨⟨'x', [], rfl, by decide, by simp⟩, by decide⟩
  have hy : Placed (.ident "y") := placed_ident ⟨⟨'y', [], rfl, by decide, by simp⟩, by decide⟩
  have hf : Placed (.ident "f") := placed_ident ⟨⟨'f', [], rfl, by decide, by simp⟩, by decide⟩
  have hnumber : IsConstant "1" := Or.inl ⟨'1', [], rfl, rfl, rfl⟩
  have hone : Placed (.constant "int" "1") :=
    ⟨.of_parts ⟨by simp [Node.names], by simpa [Node.constants] using hnumber⟩ (by simp [Node.parts]),
      .of_parts (by simp [Node.headParts]) (by simp [Node.parts])⟩
  have hbreak : Placed .breakJump := placed_of_parts rfl rfl rfl (by simp [Node.parts])
  have hcontinue : Placed .continueJump := placed_of_parts rfl rfl rfl (by simp [Node.parts])
  have hif : Placed (.ifElse (.ident "y") .breakJump none) :=
    placed_of_parts rfl rfl rfl (by simp [Node.parts, hy, hbreak])
  have hcall : Placed (.call (.ident "f") none) := placed_of_parts rfl rfl rfl (by simp [Node.parts, hf])
  have hcase : Placed (.caseLabel (.constant "int" "1") [.call (.ident "f") none, .breakJump]) :=
    placed_of_parts rfl rfl rfl (by simp [Node.parts, hone, hcall, hbreak])
  have hdefault : Placed (.defaultLabel [.continueJump]) :=
    placed_of_parts rfl rfl rfl (by simp [Node.parts, hcontinue])
  have harms : Placed (.block [.caseLabel (.constant "int" "1") [.call (.ident "f") none, .breakJump],
      .defaultLabel [.continueJump]]) := placed_of_parts rfl rfl rfl (by simp [Node.parts, hcase, hdefault])
  have hswitch : Placed (.switch (.ident "x") (.block
      [.caseLabel (.constant "int" "1") [.call (.ident "f") none, .breakJump], .defaultLabel [.continueJump]])) :=
    placed_of_parts rfl rfl rfl (by simp [Node.parts, hx, harms])
  have hbody : Placed (.block [.ifElse (.ident "y") .breakJump none, .switch (.ident "x") (.block
      [.caseLabel (.constant "int" "1") [.call (.ident "f") none, .breakJump], .defaultLabel [.continueJump]])]) :=
    placed_of_parts rfl rfl rfl (by simp [Node.parts, hif, hswitch])
  exact placed_of_parts rfl rfl rfl (by simp [jumpingLoop, Node.parts, hx, hbody])

theorem loopLevel_jumpingLoop : ∃ code, (writeStmt {} .outermost false jumpingLoop).result = .ok code ∧
    ¬LoopLevel "break" (Code.allLinesAt 0 code) ∧ ¬LoopLevel "continue" (Code.allLinesAt 0 code) := by
  refine ⟨_, rfl, ?_⟩
  exact (loopLevel_writeStmt {} .outermost false 0 placed_jumpingLoop.1 placed_jumpingLoop.2 rfl).2.2.1 rfl

/-- A loop that a `break` initializes. -/
def jumpingHead : Node := .forLoop (some .breakJump) none none .empty

/-- A comma list with a `break` in it. -/
def jumpingList : Node := .exprList [.breakJump]

/-- Jumps out of place come to stand at loop level: that of a head ahead of its own loop, and that of a comma list where
none is looked for. -/
theorem loopLevel_out_of_place :
    (OverTokens jumpingHead ∧ jumpingHead.isLoop = true ∧
      ∃ code, (writeStmt {} .outermost false jumpingHead).result = .ok code ∧
        LoopLevel "break" (Code.allLinesAt 0 code)) ∧
      OverTokens jumpingList ∧ containsJump .onlyBreak jumpingList = false ∧
        ∃ code, (writeStmt {} .outermost false jumpingList).result = .ok code ∧
          LoopLevel "break" (Code.allLinesAt 0 code) := by
  have hbreak : OverTokens .breakJump := overTokens_of_parts rfl rfl (by simp [Node.parts])
  have hempty : OverTokens .empty := overTokens_of_parts rfl rfl (by simp [Node.parts])
  have hjump : IsJump "break" "break" := ⟨by decide, [], rfl, by simp⟩
  have hlevel : ∀ rest, LoopLevel "break" ("break" :: rest) := by
    intro rest
    refine ⟨[], "break", rest, rfl, hjump, fun start header inner heq => ?_⟩
    simp at heq
  refine ⟨⟨overTokens_of_parts rfl rfl ?_, rfl, _, rfl, hlevel _⟩,
    overTokens_of_parts rfl rfl ?_, rfl, _, rfl, hlevel _⟩
  · simp [jumpingHead, Node.parts, hbreak, hempty]
  · simp [jumpingList, Node.parts, hbreak]

end StubGen.CUnit
