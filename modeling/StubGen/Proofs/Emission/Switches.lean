import StubGen.CUnit.Generator
import StubGen.Proofs.Emission.Rules
import StubGen.Proofs.Suite.Writers

/-!
# Emission of switches

How a switch is grouped does not depend on what writes its statements (`armsOf_map`, `regions_map`).  So from statements
that are `Matched`, each an emission with the code that it writes, `emits_switch` gives the same for the switch.
-/

namespace StubGen.CUnit

open Emission

variable {α β : Type} {reduce : Bool} {cond : Node}

/-! ### Statements with something else at them -/

def Written.map (f : α → β) (written : Written α) : Written β := ⟨written.stmt, f written.code⟩

def Arm.map (f : α → β) (arm : Arm α) : Arm β := ⟨arm.labels, arm.body.map (Written.map f), arm.terminal⟩

def SwitchItem.map (f : α → β) : SwitchItem α → SwitchItem β
  | .labelled label stmts => .labelled label (stmts.map (Written.map f))
  | .other kind => .other kind

private theorem checkBreaks_map (f : α → β) (label : String) (body : List (Written α)) :
    checkBreaks label (body.map (Written.map f)) = checkBreaks label body := by
  induction body with
  | nil => rfl
  | cons written rest ih =>
    simp only [List.map_cons, checkBreaks, Written.map, ih, List.isEmpty_map]

private theorem armsFrom_map (f : α → β) (labels : List CaseLabel) (items : List (SwitchItem α)) :
    armsFrom reduce labels (items.map (SwitchItem.map f)) =
      do return (← armsFrom reduce labels items).map (Arm.map f) := by
  induction items generalizing labels with
  | nil =>
    rw [List.map_nil, armsFrom, armsFrom, pure_bind]
    split <;> rfl
  | cons item rest ih =>
    cases item with
    | other kind => rfl
    | labelled label stmts =>
      cases stmts with
      | nil => exact ih (labels ++ [label])
      | cons first others =>
        have hlast : (((first :: others).map (Written.map f)).getLast?.map (·.stmt)).any isTerminal =
            ((first :: others).getLast?.map (·.stmt)).any isTerminal := by
          rw [List.getLast?_map, Option.map_map]
          rfl
        have hbody : Written.map f first :: others.map (Written.map f) = (first :: others).map (Written.map f) := rfl
        simp only [List.map_cons, SwitchItem.map, armsFrom, ih, bind_assoc, pure_bind]
        simp only [hbody, checkBreaks_map, hlast]
        rfl

theorem armsOf_map (f : α → β) (items : List (SwitchItem α)) :
    armsOf reduce (items.map (SwitchItem.map f)) = do return (← armsOf reduce items).map (Arm.map f) :=
  armsFrom_map f [] items

private theorem matchOrder_map (f : α → β) (arms : List (Arm α)) :
    matchOrder (arms.map (Arm.map f)) = (matchOrder arms).map (Arm.map f) := by
  rw [matchOrder, matchOrder, List.filter_map, List.filter_map, List.map_append]
  rfl

private theorem fallsThrough_map (f : α → β) (arms : List (Arm α)) :
    fallsThrough (arms.map (Arm.map f)) = fallsThrough arms := by
  rw [fallsThrough, fallsThrough, ← List.map_dropLast, List.any_map]
  rfl

theorem regions_map (f : α → β) (arms : List (Arm α)) :
    regions (arms.map (Arm.map f)) = (regions arms).map (List.map (Arm.map f)) := by
  induction arms with
  | nil => rfl
  | cons arm rest ih =>
    rw [List.map_cons, regions, regions, ih]
    have hterminal : (arm.map f).terminal = arm.terminal := rfl
    rw [hterminal]
    cases arm.terminal with
    | true => rfl
    | false => cases regions rest <;> rfl

/-- The labels with what runs from them. -/
private theorem regionEntries_map (f : α → β) (region : List (Arm α)) :
    regionEntries (region.map (Arm.map f)) =
      (regionEntries region).map fun entry => (entry.1, entry.2.map (Written.map f)) := by
  induction region with
  | nil => rfl
  | cons arm rest ih =>
    rw [List.map_cons, regionEntries, regionEntries, ih]
    simp [Arm.map, List.flatMap_map, List.map_flatMap, Function.comp_def]

/-! ### Matched statements -/

/-- An emission and the code that it writes. -/
structure Matched where
  emission : Emission Unit
  piece : TracedCode
  emits : Emits emission piece

private theorem emits_sequence (stmts : List (Written Matched)) :
    Emits (emitSequence (stmts.map (Written.map Matched.emission)))
      (sequence (stmts.map (Written.map Matched.piece))) := by
  induction stmts with
  | nil => exact .pure
  | cons written rest ih => exact written.code.emits.append ih

private theorem emits_case (arm : Arm Matched) :
    Emits (emitCase reduce cond (arm.map Matched.emission)) (do
      let header ← caseHeader reduce cond (arm.map Matched.piece)
      return [.suite header (Code.orPass (← sequence (arm.map Matched.piece).body))]) := by
  refine .trace fun header hheader => ?_
  have hcase : (caseHeader reduce cond (arm.map Matched.piece)).result = .ok header := hheader
  exact (emits_sequence arm.body).block (isSuiteHeader_caseHeader hcase)

private theorem emits_match (arms : List (Arm Matched)) :
    Emits (emitMatch reduce cond (arms.map (Arm.map Matched.emission)))
      (writeMatch reduce cond (arms.map (Arm.map Matched.piece))) := by
  unfold emitMatch writeMatch
  refine .trace fun subject _ => ?_
  rw [matchOrder_map, matchOrder_map]
  have hheader : isSuiteHeader ("match " ++ subject ++ ":").toList = true :=
    isSuiteHeader_append (by decide) subject (by decide)
  refine Emits.suite hheader ?_
  rw [List.mapM_map]
  have hforM : ((matchOrder arms).map (Arm.map Matched.emission)).forM (emitCase reduce cond) =
      (matchOrder arms).forM fun arm => emitCase reduce cond (arm.map Matched.emission) := List.forM_map ..
  rw [hforM]
  refine .forM_single fun arm _ => ?_
  simp only [Function.comp, bind_assoc, pure_bind]
  exact emits_case arm

private theorem emits_chain (first : Bool) (entries : List (CaseLabel × List (Written Matched))) :
    Emits (emitChain reduce cond first (entries.map fun entry => (entry.1, entry.2.map (Written.map Matched.emission))))
      (writeChain reduce cond first (entries.map fun entry => (entry.1, entry.2.map (Written.map Matched.piece)))) := by
  induction entries generalizing first with
  | nil => exact .pure
  | cons entry rest ih =>
    obtain ⟨label, stmts⟩ := entry
    have hstmts := emits_sequence stmts
    cases label with
    | value label =>
      refine .trace fun test _ => ?_
      have hheader : isSuiteHeader ((if first then "if " else "elif ") ++ test ++ ":").toList = true :=
        isSuiteHeader_append (by split <;> decide) test (by decide)
      have hbranch := (hstmts.block hheader).append (ih false)
      simp only [bind_assoc, pure_bind] at hbranch
      exact hbranch
    | default =>
      cases first with
      | false =>
        have helse : isSuiteHeader "else:".toList = true := by decide
        have hbranch := (hstmts.block helse).append (ih false)
        simp only [bind_assoc, pure_bind] at hbranch
        exact hbranch
      | true =>
        exact hstmts.append (ih true)

private theorem emits_fallthrough (arms : List (Arm Matched)) :
    Emits (emitFallthrough reduce cond (arms.map (Arm.map Matched.emission)))
      (writeFallthrough reduce cond (arms.map (Arm.map Matched.piece))) := by
  have hentries : ∀ {γ : Type} (f : Matched → γ), (regions (arms.map (Arm.map f))).flatMap regionEntries =
      ((regions arms).flatMap regionEntries).map fun entry => (entry.1, entry.2.map (Written.map f)) := by
    intro γ f
    rw [regions_map, List.flatMap_map, List.map_flatMap]
    exact List.flatMap_congr fun region _ => regionEntries_map f region
  have hlabels : ∀ {γ : Type} (f : Matched → γ),
      (arms.map (Arm.map f)).flatMap Arm.labels = arms.flatMap Arm.labels := by
    intro γ f
    rw [List.flatMap_map]
    rfl
  have hwritten : Emits
      (if defaultBeforeLast (arms.flatMap Arm.labels) then throw .defaultNotLast
        else emitChain reduce cond true ((regions (arms.map (Arm.map Matched.emission))).flatMap regionEntries))
      (if defaultBeforeLast (arms.flatMap Arm.labels) then .fail .defaultNotLast
        else writeChain reduce cond true ((regions (arms.map (Arm.map Matched.piece))).flatMap regionEntries)) := by
    rw [hentries, hentries]
    split
    · exact .throw _
    · exact emits_chain true ((regions arms).flatMap regionEntries)
  unfold emitFallthrough writeFallthrough
  rw [hlabels, hlabels]
  cases cond with
  | ident | constant => exact hwritten
  | _ => exact .throw _

theorem emits_switch (items : List (SwitchItem Matched)) :
    Emits (emitSwitch reduce cond (items.map (SwitchItem.map Matched.emission)))
      (writeSwitch reduce cond (items.map (SwitchItem.map Matched.piece))) := by
  unfold emitSwitch writeSwitch
  rw [armsOf_map, armsOf_map]
  simp only [liftM_bind, liftM_pure, bind_assoc, pure_bind]
  refine .trace fun arms _ => ?_
  rw [List.isEmpty_map, List.isEmpty_map, fallsThrough_map, fallsThrough_map]
  split_ifs
  · exact .pure
  · exact emits_fallthrough arms
  · exact emits_match arms

end StubGen.CUnit
