import Mathlib.Data.List.Forall2
import StubGen.Proofs.Definition.Parameters
import StubGen.Proofs.Emission.Writers

/-!
# Type hints of functions

The option for type hints annotates the parameters and the results of functions, and changes nothing else.

* `writeStmt_withHints` and its like: what stands outside the heads of functions does not depend on the option.
* `Covers` compares the pieces written with and without hints; `covers_writeExternal` is about the items of a unit.
* `generate_withHints` is about documents: they differ in the annotations of the heads and in the imports for them.
-/

namespace StubGen

/-- The options with or without type hints. -/
def UnitOptions.withHints (options : UnitOptions) (hints : Bool) : UnitOptions := { options with typeHints := hints }

namespace CUnit

open Traced

section Frame

variable (options : UnitOptions) (hints : Bool)

/-! ### What does not depend on the option -/

private theorem writeInnerDefinitions_withHints (context : Context) (type : Node) :
    writeInnerDefinitions (options.withHints hints) context type = writeInnerDefinitions options context type := by
  induction type using writeInnerDefinitions.induct with
  | case1 name type ih => exact ih
  | case2 target ih => exact ih
  | case3 element size ih => exact ih
  | case4 => rfl
  | case5 => rfl
  | case6 => rfl
  | case7 type h1 h2 h3 h4 h5 h6 =>
    rw [writeInnerDefinitions, writeInnerDefinitions] <;> assumption

private theorem writeDecl_withHints (context : Context) (decl : Node) :
    writeDecl (options.withHints hints) context decl = writeDecl options context decl := by
  unfold writeDecl
  split
  case h_6 => rw [writeInnerDefinitions_withHints]; rfl
  all_goals rfl

private theorem writeParamDefinitions_withHints (context : Context) (args : Option Node) :
    writeParamDefinitions (options.withHints hints) context args = writeParamDefinitions options context args := by
  have hinner : writeInnerDefinitions (options.withHints hints) context = writeInnerDefinitions options context :=
    funext fun type => writeInnerDefinitions_withHints ..
  unfold writeParamDefinitions
  rw [hinner]

private theorem writeSimple_withHints (context : Context) (stmt : Node) :
    writeSimple (options.withHints hints) context stmt = writeSimple options context stmt := by
  unfold writeSimple
  split
  case h_1 => exact writeDecl_withHints ..
  case h_2 decls =>
    have h : writeDecl (options.withHints hints) context = writeDecl options context :=
      funext fun decl => writeDecl_withHints ..
    change writeDecls _ _ _ = writeDecls _ _ _
    rw [writeDecls, h, writeDecls]
  all_goals rfl

mutual

/-- A statement is written alike with and without type hints. -/
private theorem writeStmt_withHints (context : Context) (after : Bool) (stmt : Node) :
    writeStmt (options.withHints hints) context after stmt = writeStmt options context after stmt := by
  cases stmt with
  | ifElse cond whenTrue whenFalse =>
    have htrue := writeStmt_withHints context false whenTrue
    cases whenFalse with
    | none =>
      rw [writeStmt, writeStmt, htrue]
      rfl
    | some whenFalse =>
      have hfalse : (fun after => writeStmt (options.withHints hints) context after whenFalse) =
          fun after => writeStmt options context after whenFalse :=
        funext fun after => writeStmt_withHints context after whenFalse
      rw [writeStmt, writeStmt, htrue, hfalse]
      rfl
  | block items => rw [writeStmt, writeStmt, writeStmts_withHints context items]
  | exprList exprs => rw [writeStmt, writeStmt, writeStmts_withHints context exprs]
  | labelled label stmt => rw [writeStmt, writeStmt, writeStmt_withHints context false stmt]
  | forLoop init cond next body =>
    have hbody := writeStmt_withHints context.enterLoop false body
    cases init with
    | none =>
      cases next with
      | none =>
        rw [writeStmt, writeStmt, hbody]
        rfl
      | some next =>
        rw [writeStmt, writeStmt, hbody, writeStmt_withHints context false next]
        rfl
    | some init =>
      have hinit := writeStmt_withHints context false init
      cases next with
      | none =>
        rw [writeStmt, writeStmt, hbody, hinit]
        rfl
      | some next =>
        rw [writeStmt, writeStmt, hbody, hinit, writeStmt_withHints context false next]
        rfl
  | whileLoop cond body =>
    rw [writeStmt, writeStmt, writeStmt_withHints context.enterLoop false body]
    rfl
  | doLoop cond body =>
    rw [writeStmt, writeStmt, writeStmt_withHints context.enterLoop false body,
      writeStmt_withHints context false body]
    rfl
  | switch cond body =>
    cases body with
    | block items =>
      rw [writeStmt, writeStmt, writeItems_withHints _ items]
      rfl
    | caseLabel label stmts =>
      rw [writeStmt, writeStmt, writeFlat_withHints _ stmts]
      rfl
    | defaultLabel stmts =>
      rw [writeStmt, writeStmt, writeFlat_withHints _ stmts]
      rfl
    | _ => rfl
  | _ =>
    exact congrArg (fun piece : Traced (List Code) => (do return elseCode after (← piece) : Traced (List Code)))
      (writeSimple_withHints options hints context _)
termination_by sizeOf stmt

private theorem writeStmts_withHints (context : Context) (stmts : List Node) :
    writeStmts (options.withHints hints) context stmts = writeStmts options context stmts := by
  cases stmts with
  | nil => rfl
  | cons stmt rest =>
    rw [writeStmts, writeStmts, writeStmt_withHints context false stmt, writeStmts_withHints context rest]
termination_by sizeOf stmts

private theorem writeFlat_withHints (context : Context) (stmts : List Node) :
    writeFlat (options.withHints hints) context stmts = writeFlat options context stmts := by
  cases stmts with
  | nil => rfl
  | cons stmt rest =>
    have hrest := writeFlat_withHints context rest
    have hstmt := writeStmt_withHints context false stmt
    cases stmt with
    | block items => rw [writeFlat, writeFlat, writeFlat_withHints context items, hrest]
    | _ => exact congrArg₂ (fun code others => (⟨_, code⟩ : Written TracedCode) :: others) hstmt hrest
termination_by sizeOf stmts

private theorem writeItems_withHints (context : Context) (items : List Node) :
    writeItems (options.withHints hints) context items = writeItems options context items := by
  cases items with
  | nil => rfl
  | cons item rest =>
    have hrest := writeItems_withHints context rest
    cases item with
    | caseLabel label stmts => rw [writeItems, writeItems, writeFlat_withHints context stmts, hrest]
    | defaultLabel stmts => rw [writeItems, writeItems, writeFlat_withHints context stmts, hrest]
    | _ => exact congrArg (List.cons _) hrest
termination_by sizeOf items

end

end Frame

/-! ### Two runs side by side -/

/-- Results that are related, or failures of one cause. -/
inductive AlikeResults {α β : Type} (R : α → β → Prop) : Except GenerateError α → Except GenerateError β → Prop
  | ok {first : α} {second : β} : R first second → AlikeResults R (.ok first) (.ok second)
  | error (cause : GenerateError) : AlikeResults R (.error cause) (.error cause)

/-- The second piece ends like the first one, and uses all that the first one uses. -/
structure Covers {α β : Type} (R : α → β → Prop) (first : Traced α) (second : Traced β) : Prop where
  result : AlikeResults R first.result second.result
  uses : first.uses ⊆ second.uses

namespace Covers

variable {α β γ δ : Type} {R : α → β → Prop} {S : γ → δ → Prop}

theorem self (piece : Traced α) : Covers Eq piece piece := by
  refine ⟨?_, List.Subset.refl _⟩
  cases piece.result with
  | ok value => exact .ok rfl
  | error cause => exact .error cause

theorem of_eq {first second : Traced α} (h : first = second) : Covers Eq first second := h ▸ .self first

theorem fail (cause : GenerateError) : Covers R (.fail cause) (.fail cause) :=
  ⟨.error cause, List.Subset.refl _⟩

theorem pure {first : α} {second : β} (h : R first second) :
    Covers R (Pure.pure first : Traced α) (Pure.pure second : Traced β) := ⟨.ok h, List.Subset.refl _⟩

/-- Without hints nothing is used, so what hints use does not matter. -/
theorem of_pure {first : α} {second : β} {piece : Traced β} (hpiece : piece.result = .ok second)
    (h : R first second) : Covers R (Pure.pure first) piece :=
  ⟨hpiece ▸ .ok h, List.nil_subset _⟩

theorem bind {first : Traced α} {second : Traced β} {next : α → Traced γ} {next' : β → Traced δ}
    (h : Covers R first second) (hnext : ∀ value value', R value value' → Covers S (next value) (next' value')) :
    Covers S (first >>= next) (second >>= next') := by
  obtain ⟨uses, result⟩ := first
  obtain ⟨uses', result'⟩ := second
  obtain ⟨hresult, huses⟩ := h
  cases hresult with
  | error cause => exact ⟨.error cause, huses⟩
  | ok hvalue =>
    obtain ⟨hresult, huses'⟩ := hnext _ _ hvalue
    refine ⟨hresult, List.append_subset.mpr ⟨?_, ?_⟩⟩
    · exact List.Subset.trans huses (List.subset_append_left ..)
    · exact List.Subset.trans huses' (List.subset_append_right ..)

end Covers

/-! ### Heads of functions -/

/-- The head of a function: its name, its parameters as they are written, each with its annotation if there is one for
it, and the annotation of the result. -/
structure FunctionHead where
  name : String
  params : List (String × Option String)
  result : String

namespace FunctionHead

/-- A parameter at a position.  The mark of further parameters has no annotation. -/
def paramOf (position : Nat) (param : Node) : String × Option String :=
  match paramForm param with
  | .rest => ("*args", none)
  | form => (form.bound position, some (typeHint param).text)

/-- The head of a function in C. -/
def of? : Node → Option FunctionHead
  | .function (.decl (some name) _ _ (.functionType args result) _ _) _ _ =>
    some ⟨escapeName name, (paramsOf args).mapIdx paramOf, (typeHint result).text⟩
  | _ => none

/-- The head without annotations. -/
def plain (head : FunctionHead) : String :=
  "def " ++ head.name ++ "(" ++ ", ".intercalate (head.params.map Prod.fst) ++ "):"

/-- A parameter with its annotation. -/
def annotatedParam (param : String × Option String) : String := param.2.elim param.1 (param.1 ++ ": " ++ ·)

/-- The head with annotations. -/
def annotated (head : FunctionHead) : String :=
  "def " ++ head.name ++ "(" ++ ", ".intercalate (head.params.map annotatedParam) ++ ") -> " ++ head.result ++ ":"

end FunctionHead

/-- Lines that are the same, or a head of a function without and with its annotations. -/
inductive LinesAgree (heads : List FunctionHead) : String → String → Prop
  | same (line : String) : LinesAgree heads line line
  | head {head : FunctionHead} : head ∈ heads → LinesAgree heads head.plain head.annotated

theorem LinesAgree.refl (heads : List FunctionHead) (lines : List String) :
    List.Forall₂ (LinesAgree heads) lines lines :=
  List.forall₂_same.mpr fun line _ => .same line

/-- The lines of code, without and with annotations. -/
def CodeAgrees (heads : List FunctionHead) (code code' : List Code) : Prop :=
  List.Forall₂ (LinesAgree heads) (Code.allLinesAt 0 code) (Code.allLinesAt 0 code')

private theorem covers_paramText (position : Nat) (param : Node) :
    Covers (fun text text' => text = (FunctionHead.paramOf position param).1 ∧
        text' = FunctionHead.annotatedParam (FunctionHead.paramOf position param))
      (paramText false position param) (paramText true position param) := by
  cases param with
  | ellipsis => exact .pure ⟨rfl, rfl⟩
  | decl name quals storage type init width => cases name <;> exact .of_pure rfl ⟨rfl, rfl⟩
  | _ => exact .of_pure rfl ⟨rfl, rfl⟩

private theorem covers_paramTexts (position : Nat) (params : List Node) :
    Covers (fun texts texts' =>
        texts = (params.mapIdx fun index => FunctionHead.paramOf (position + index)).map Prod.fst ∧
        texts' = (params.mapIdx fun index => FunctionHead.paramOf (position + index)).map FunctionHead.annotatedParam)
      (paramTexts false position params) (paramTexts true position params) := by
  induction params generalizing position with
  | nil => exact .pure ⟨rfl, rfl⟩
  | cons param rest ih =>
    have hrest := ih (position + 1)
    rw [paramTexts, paramTexts]
    refine (covers_paramText position param).bind fun text text' htext => hrest.bind fun texts texts' htexts => .pure ?_
    obtain ⟨rfl, rfl⟩ := htext
    obtain ⟨rfl, rfl⟩ := htexts
    simp [List.mapIdx_cons, Nat.add_assoc, Nat.add_comm 1]

/-- The code ahead of a function is the same, and the line behind it is its head, without and with annotations. -/
def SignatureAgrees (item : Node) (written written' : List Code × String) : Prop :=
  written.1 = written'.1 ∧
    ∃ head, FunctionHead.of? item = some head ∧ written.2 = head.plain ∧ written'.2 = head.annotated

private theorem covers_writeSignature (options : UnitOptions) (context : Context) (decl : Node)
    (paramDecls : List Node) (body : Node) :
    Covers (SignatureAgrees (.function decl paramDecls body))
      (writeSignature (options.withHints false) context decl)
      (writeSignature (options.withHints true) context decl) := by
  cases decl with
  | decl name quals storage type init width =>
    cases name with
    | none => exact .fail _
    | some name =>
      cases type with
      | functionType args result =>
        have hresult : Covers Eq
            (writeInnerDefinitions (options.withHints false) (context.withRole .signature) result)
            (writeInnerDefinitions (options.withHints true) (context.withRole .signature) result) :=
          .of_eq ((writeInnerDefinitions_withHints ..).trans (writeInnerDefinitions_withHints ..).symm)
        have hparams : Covers Eq
            (writeParamDefinitions (options.withHints false) (context.withRole .params) args)
            (writeParamDefinitions (options.withHints true) (context.withRole .params) args) :=
          .of_eq ((writeParamDefinitions_withHints ..).trans (writeParamDefinitions_withHints ..).symm)
        rw [writeSignature, writeSignature]
        simp only [signatureHead, bind_assoc]
        refine hresult.bind fun types _ htypes => hparams.bind fun inner _ hinner =>
          (covers_paramTexts 0 (paramsOf args)).bind fun texts texts' htexts => ?_
        subst htypes hinner
        have hagrees : SignatureAgrees
            (.function (.decl (some name) quals storage (.functionType args result) init width) paramDecls body)
            (types ++ inner ++ [.blank 2],
              "def " ++ escapeName name ++ "(" ++ ", ".intercalate texts ++ ")" ++ "" ++ ":")
            (types ++ inner ++ [.blank 2], "def " ++ escapeName name ++ "(" ++ ", ".intercalate texts' ++ ")" ++
              (" -> " ++ (typeHint result).text) ++ ":") := by
          obtain ⟨rfl, rfl⟩ := htexts
          have hmark : ") -> " = ")" ++ " -> " := rfl
          refine ⟨rfl, _, rfl, ?_, ?_⟩
          · simp [FunctionHead.plain, String.append_assoc]
          · rw [FunctionHead.annotated, hmark]
            simp [-String.reduceAppend, String.append_assoc]
        exact .of_pure rfl hagrees
      | _ => exact .fail _
  | _ => exact .fail _

/-! ### Units -/

private theorem indented_zero (text : String) : indented 0 text = text := by
  simp [indented]

private theorem CodeAgrees.refl (heads : List FunctionHead) (code : List Code) : CodeAgrees heads code code :=
  LinesAgree.refl heads _

private theorem CodeAgrees.append {heads : List FunctionHead} {first first' second second' : List Code}
    (hfirst : CodeAgrees heads first first') (hsecond : CodeAgrees heads second second') :
    CodeAgrees heads (first ++ second) (first' ++ second') := by
  rw [CodeAgrees, Code.allLinesAt_append, Code.allLinesAt_append]
  exact List.rel_append hfirst hsecond

private theorem Covers.codeAgrees {heads : List FunctionHead} {first second : Traced (List Code)} (h : first = second) :
    Covers (CodeAgrees heads) first second := by
  rw [← bind_pure first, ← bind_pure second]
  exact (Covers.of_eq h).bind fun code _ hcode => .pure (hcode ▸ .refl heads code)

/-- An item of a unit. -/
theorem covers_writeExternal (options : UnitOptions) (context : Context) {heads : List FunctionHead} {item : Node}
    (h : ∀ head, FunctionHead.of? item = some head → head ∈ heads) :
    Covers (CodeAgrees heads) (writeExternal (options.withHints false) context item)
      (writeExternal (options.withHints true) context item) := by
  cases item with
  | function decl paramDecls body =>
    have hbody : Covers Eq (writeStmt (options.withHints false) (context.withRole .body) false body)
        (writeStmt (options.withHints true) (context.withRole .body) false body) :=
      .of_eq ((writeStmt_withHints ..).trans (writeStmt_withHints ..).symm)
    refine (covers_writeSignature options context decl paramDecls body).bind fun written written' hwritten =>
      hbody.bind fun code _ hcode => .pure ?_
    obtain ⟨ahead, line⟩ := written
    obtain ⟨ahead', line'⟩ := written'
    obtain ⟨rfl, head, hhead, rfl, rfl⟩ := hwritten
    subst hcode
    refine (CodeAgrees.refl heads ahead).append ?_
    have hline : LinesAgree heads (indented 0 head.plain) (indented 0 head.annotated) := by
      rw [indented_zero, indented_zero]
      exact .head (h head hhead)
    exact .cons hline (LinesAgree.refl heads _)
  | decl => exact .codeAgrees ((writeDecl_withHints ..).trans (writeDecl_withHints ..).symm)
  | typedef => exact .codeAgrees rfl
  | pragma => exact .codeAgrees ((writeStmt_withHints ..).trans (writeStmt_withHints ..).symm)
  | staticAssert => exact .codeAgrees ((writeStmt_withHints ..).trans (writeStmt_withHints ..).symm)
  | _ => exact .fail _

private theorem covers_writeExternals (options : UnitOptions) {heads : List FunctionHead} {items : List Node}
    (h : ∀ item ∈ items, ∀ head, FunctionHead.of? item = some head → head ∈ heads) :
    Covers (CodeAgrees heads) (writeExternals (options.withHints false) items)
      (writeExternals (options.withHints true) items) := by
  induction items with
  | nil => exact .pure (CodeAgrees.refl heads [])
  | cons item rest ih =>
    obtain ⟨hitem, hrest⟩ := List.forall_mem_cons.mp h
    rw [writeExternals, writeExternals]
    exact (covers_writeExternal options .outermost hitem).bind fun code code' hcode =>
      (ih hrest).bind fun others others' hothers => .pure (hcode.append hothers)

/-- The heads of the functions of a unit. -/
def Node.heads : Node → List FunctionHead
  | .unit items => items.filterMap FunctionHead.of?
  | _ => []

/-- Documents that differ in the annotations of function heads, and in imports of the second one only. -/
structure DocumentsAgree (heads : List FunctionHead) (first second : Document) : Prop where
  header : first.header = second.header
  blocks : List.Forall₂ (List.Forall₂ (LinesAgree heads)) first.blocks second.blocks
  imports : ∀ use, first.imports.provides use → second.imports.provides use

/-- Type hints are inert: without and with them a unit fails for the same reason, or gives documents whose lines are the
same, one by one, but for the annotations in the heads of its functions.  The imports without hints are among those with
them. -/
theorem generate_withHints (options : UnitOptions) (root : Node) :
    AlikeResults (DocumentsAgree root.heads) (generate (options.withHints false) root)
      (generate (options.withHints true) root) := by
  have hunit : Covers (CodeAgrees root.heads) (writeUnit (options.withHints false) root)
      (writeUnit (options.withHints true) root) := by
    cases root with
    | unit items =>
      exact covers_writeExternals options fun item hitem head hhead => List.mem_filterMap.mpr ⟨item, hitem, hhead⟩
    | _ => exact .fail _
  obtain ⟨hresult, huses⟩ := hunit
  rw [generate_eq, generate_eq]
  revert hresult huses
  generalize writeUnit (options.withHints false) root = first
  generalize writeUnit (options.withHints true) root = second
  intro hresult huses
  obtain ⟨uses, result⟩ := first
  obtain ⟨uses', result'⟩ := second
  cases hresult with
  | error cause => exact .error cause
  | @ok code code' hcode =>
    refine .ok ⟨rfl, ?_, fun use huse => ?_⟩
    · change List.Forall₂ _ [Code.lines code] [Code.lines code']
      rw [Code.lines_eq, Code.lines_eq]
      exact .cons hcode .nil
    · exact (Imports.provides_ofUses uses' use).mpr (huses ((Imports.provides_ofUses uses use).mp huse))

end CUnit

end StubGen
