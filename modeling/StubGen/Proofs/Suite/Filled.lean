import Mathlib.Data.List.TakeWhile
import StubGen.Proofs.Emission.Writers
import StubGen.Proofs.Suite.Clause

/-!
# Filled suites

The suite of a header ends where the lines return to the header's depth.  In the code of a unit over the tokens of C no
suite is blank (`fills_generate`), and one has a statement unless it has nothing but the comments that labels and
pragmas leave (`not_fills_labelledBranch`).

* `Fills` says of lines that each header has a line of some kind in its suite.
* `fills_allLinesAt` shows it of laid out code from its lines alone.
-/

namespace StubGen

/-- The lines of the suite of a header at this depth: those before the next one that is not blank and not deeper. -/
def suiteLines (depth : Nat) (lines : List String) : List String :=
  lines.takeWhile fun line => isBlankLine line || depth < depthOf line

/-- Each header among the lines has a line of this kind in its suite. -/
def Fills (good : String → Bool) (lines : List String) : Prop :=
  ∀ before header after, lines = before ++ header :: after → isSuiteHeader (bareText header) = true →
    ∃ line ∈ suiteLines (depthOf header) after, good line = true

def isShownLine (line : String) : Bool := !isBlankLine line

/-- Whether a line is neither blank nor a comment. -/
def isStatementLine (line : String) : Bool := !isBlankLine line && (bareText line).head? ≠ some '#'

theorem suiteLines_append {depth : Nat} {first : List String} {line : String} (h : line ∈ suiteLines depth first)
    (second : List String) : line ∈ suiteLines depth (first ++ second) := by
  rw [suiteLines, List.takeWhile_append]
  split
  · exact List.mem_append_left _ ((List.takeWhile_prefix _).subset h)
  · exact h

namespace Fills

variable {good : String → Bool} {first second : List String}

theorem nil : Fills good [] := fun before header after heq => by simp at heq

theorem append (hfirst : Fills good first) (hsecond : Fills good second) : Fills good (first ++ second) := by
  intro before header after heq hheader
  rcases List.append_eq_append_iff.mp heq with ⟨middle, rfl, hrest⟩ | ⟨middle, hstart, hrest⟩
  · exact hsecond middle header after hrest hheader
  · cases middle with
    | nil => exact hsecond [] header after hrest.symm hheader
    | cons other middle =>
      cases hrest
      obtain ⟨line, hline, hgood⟩ := hfirst before header middle hstart hheader
      exact ⟨line, suiteLines_append hline second, hgood⟩

theorem of_forall (h : ∀ line ∈ first, isSuiteHeader (bareText line) = false) : Fills good first := by
  intro before header after heq hheader
  have hmem : header ∈ first := by
    rw [heq]
    exact List.mem_append_right _ (List.mem_cons_self ..)
  rw [h header hmem] at hheader
  cases hheader

/-- A header is filled if all the lines after it belong to its suite, and one of them is of the kind. -/
theorem cons {header : String} (hsuite : ∀ line ∈ first, isBlankLine line = true ∨ depthOf header < depthOf line)
    (hgood : ∃ line ∈ first, good line = true) (h : Fills good first) : Fills good (header :: first) := by
  intro before other after heq hother
  cases before with
  | nil =>
    cases heq
    have hall : suiteLines (depthOf header) first = first :=
      List.takeWhile_eq_self_iff.mpr fun line hline => by simpa using hsuite line hline
    rw [hall]
    exact hgood
  | cons start before =>
    cases heq
    exact h before other after rfl hother

end Fills

namespace CUnit

/-! ### Lines of clauses -/

section Starts

variable {text : String}

private theorem starts_cons (h : startsClause text = true) :
    ∃ c rest, text.toList = c :: rest ∧ c ≠ '#' ∧ c ≠ ' ' ∧ CodeSet.whiteSpace.contains c = false := by
  obtain ⟨c, hc, hvisible⟩ := (Option.any_eq_true _ _).mp h
  obtain ⟨rest, heq⟩ := List.head?_eq_some_iff.mp hc
  simp only [Bool.and_eq_true, decide_eq_true_eq] at hvisible
  obtain ⟨⟨hmark, hlow⟩, hhigh⟩ := hvisible
  refine ⟨c, rest, heq, hmark, ?_, ?_⟩
  · rintro rfl
    exact absurd hlow (by decide)
  · -- of the bounds of the set just the first four are at most the code point
    have h1 : 9 ≤ c.toNat := by omega
    have h2 : 14 ≤ c.toNat := by omega
    have h3 : 32 ≤ c.toNat := by omega
    have h4 : ¬133 ≤ c.toNat := by omega
    simp [CodeSet.contains, CodeSet.containsCode, CodeSet.whiteSpace, h1, h2, h3, h4, hlow]

theorem bareText_of_starts (h : startsClause text = true) : bareText text = text.toList := by
  obtain ⟨c, rest, heq, -, hblank, -⟩ := starts_cons h
  rw [bareText, heq, List.dropWhile_cons_of_neg (by simpa using hblank)]

theorem depthOf_of_starts (h : startsClause text = true) : depthOf text = 0 := by
  obtain ⟨c, rest, heq, -, hblank, -⟩ := starts_cons h
  rw [depthOf, heq, List.takeWhile_cons_of_neg (by simpa using hblank)]
  rfl

theorem isBlankLine_of_starts (h : startsClause text = true) (depth : Nat) :
    isBlankLine (indented depth text) = false := by
  obtain ⟨c, rest, heq, -, -, hspace⟩ := starts_cons h
  rw [isBlankLine, toList_indented, heq, List.all_append, List.all_cons, hspace]
  simp

theorem isStatementLine_of_starts (h : startsClause text = true) (depth : Nat) :
    isStatementLine (indented depth text) = true := by
  obtain ⟨c, rest, heq, hmark, -, -⟩ := starts_cons h
  rw [isStatementLine, isBlankLine_of_starts h, bareText_indented, bareText_of_starts h, heq]
  simpa using hmark

theorem startsClause_of_isSuiteHeader (h : isSuiteHeader text.toList = true) : startsClause text = true := by
  rw [isSuiteHeader, Bool.and_eq_true, opensSuite, List.any_eq_true] at h
  obtain ⟨⟨word, hword, hstart⟩, -⟩ := h
  obtain ⟨rest, hrest⟩ := List.isPrefixOf_iff_prefix.mp hstart
  have hwords : ∀ word ∈ headerWords, startsClause word = true := by decide
  have htext : text = word ++ String.ofList rest := by
    rw [← String.toList_inj, String.toList_append, String.toList_ofList, hrest]
  rw [htext]
  exact startsClause_append (hwords word hword) _

end Starts

/-! ### Suites of laid out code -/

/-- Laid out code has a line of some kind in each suite, if its lines are no headers, and lines and headers are of that
kind. -/
theorem fills_allLinesAt {Line : String → Prop} {good : String → Bool} {codes : List Code} (h : Laid Line codes)
    (hline : ∀ text, Line text → isSuiteHeader (bareText text) = false ∧ ∀ depth, good (indented depth text) = true)
    (hheader : ∀ header, startsClause header = true → ∀ depth, good (indented depth header) = true) (depth : Nat) :
    Fills good (Code.allLinesAt depth codes) ∧
      (codes ≠ [] → ∃ line ∈ Code.allLinesAt depth codes, good line = true) := by
  induction h generalizing depth with
  | nil => exact ⟨.nil, fun hne => absurd rfl hne⟩
  | @line text rest htext _ ih =>
    obtain ⟨hplain, hgood⟩ := hline text htext
    refine ⟨.append (.of_forall fun line hmem => ?_) (ih depth).1, fun _ => ⟨_, List.mem_cons_self .., hgood depth⟩⟩
    rw [List.mem_singleton.mp hmem, bareText_indented, hplain]
  | @blank count rest hne _ ih =>
    obtain ⟨hfills, hshown⟩ := ih depth
    refine ⟨.append (.of_forall fun line hmem => ?_) hfills, fun _ => ?_⟩
    · rw [List.eq_of_mem_replicate hmem]
      decide
    · obtain ⟨line, hmem, hgood⟩ := hshown hne
      exact ⟨line, List.mem_append_right _ hmem, hgood⟩
  | @suite header body rest hopens hne _ _ ihbody ih =>
    have hstarts := startsClause_of_isSuiteHeader hopens
    obtain ⟨hfills, hshown⟩ := ihbody (depth + 1)
    have hsuite : ∀ line ∈ Code.allLinesAt (depth + 1) body,
        isBlankLine line = true ∨ depthOf (indented depth header) < depthOf line := by
      intro line hmem
      rw [depthOf_indented, depthOf_of_starts hstarts]
      rcases deep_allLinesAt (depth + 1) body line hmem with rfl | hdeep
      · exact Or.inl (by decide)
      · exact Or.inr (by omega)
    exact ⟨.append (.cons hsuite (hshown hne) hfills) (ih depth).1,
      fun _ => ⟨_, List.mem_cons_self .., hheader header hstarts depth⟩⟩

variable {options : UnitOptions} {P : Node → Prop} {text : String}

private theorem isClause_valueText (hP : ∀ node, P node → IsLexical node) (h : ValueText options P text) :
    IsClause text := by
  cases h with
  | expr hexpr htext => exact isClause_renderExpr (hexpr.mono hP) htext
  | hint htype => exact isClause_typeHint (htype.mono hP)
  | number value => exact isClause_toString value
  | next hname => exact .closed (isClause_escapeName (hname.mono hP).isIdentifier).starts (by decide) (by decide)

/-- Whether the node leaves a comment in the code. -/
def leavesComment : Node → Bool
  | .labelled .. | .pragma _ => true
  | _ => false

/-- A line is a clause, or it is the comment of a node that leaves one. -/
private theorem isClause_lineText (hgoto : ∀ call ∈ options.gotoCall, IsIdentifier call)
    (hP : ∀ node, P node → IsLexical node) (h : LineText options P text) :
    IsClause text ∨ text.toList.head? = some '#' ∧ ∃ node, P node ∧ leavesComment node = true := by
  have hstep : ∀ ending ∈ [" += 1", " -= 1"], ending ≠ "" ∧ endsInColon ending.toList = false := by decide
  have hname : ∀ {name : String}, NameIn P name → startsClause (escapeName name) = true := fun hname =>
    (isClause_escapeName (hname.mono hP).isIdentifier).starts
  cases h with
  | pass | leaveFunction | breakJump | continueJump => exact Or.inl ⟨by decide, by decide⟩
  | assigned hin hvalue => exact Or.inl (.between (startsClause_append (hname hin) _) (isClause_valueText hP hvalue))
  | annotated hin htype =>
    exact Or.inl (.between (startsClause_append (hname hin) _) (isClause_typeHint (htype.mono hP)))
  | annotatedValue type hin hvalue =>
    exact Or.inl (.between (startsClause_append (startsClause_append (startsClause_append (hname hin) _) _) _)
      (isClause_valueText hP hvalue))
  | unset hin => exact Or.inl (.closed (hname hin) (by decide) (by decide))
  | annotatedUnset type hin =>
    exact Or.inl (.closed (startsClause_append (startsClause_append (hname hin) _) _) (by decide) (by decide))
  | step hoperand htarget hending =>
    obtain ⟨hne, hcolon⟩ := hstep _ hending
    exact Or.inl (.closed (isClause_renderExpr (hoperand.mono hP) htarget).starts hne hcolon)
  | leave test => exact Or.inl (.closed (startsClause_append (by decide) test) (by decide) (by decide))
  | assertion htest htext => exact Or.inl (.between (by decide) (isClause_renderExpr (htest.mono hP) htext))
  | assertionNote test hnote htext =>
    exact Or.inl (.between (startsClause_append (startsClause_append (by decide) test) _)
      (isClause_renderExpr (hnote.mono hP) htext))
  | assignment htarget hvalue htext =>
    exact Or.inl (isClause_renderAssignment (htarget.mono hP) (hvalue.mono hP) htext)
  | expr hexpr htext => exact Or.inl (isClause_renderExpr (hexpr.mono hP) htext)
  | result hvalue htext => exact Or.inl (.between (by decide) (isClause_renderExpr (hvalue.mono hP) htext))
  | gotoJump label hcall =>
    have hstarts := (isClause_identifier (hgoto _ hcall)).starts
    exact Or.inl (.closed (startsClause_append (startsClause_append hstarts _) label) (by decide) (by decide))
  | pragma hpragma =>
    refine Or.inr ⟨?_, _, hpragma, rfl⟩
    rw [String.toList_append]
    rfl
  | label hlabel =>
    refine Or.inr ⟨?_, _, hlabel, rfl⟩
    rw [String.toList_append]
    rfl

/-! ### Units -/

private theorem header_of_clause (h : IsClause text) : isSuiteHeader (bareText text) = false := by
  rw [bareText_of_starts h.starts, isSuiteHeader, h.ends, Bool.and_false]

private theorem header_of_comment (h : text.toList.head? = some '#') : isSuiteHeader (bareText text) = false := by
  obtain ⟨rest, heq⟩ := List.head?_eq_some_iff.mp h
  rw [bareText, heq, List.dropWhile_cons_of_neg (by decide)]
  rfl

private theorem isShownLine_of_comment (h : text.toList.head? = some '#') (depth : Nat) :
    isShownLine (indented depth text) = true := by
  obtain ⟨rest, heq⟩ := List.head?_eq_some_iff.mp h
  have hmark : CodeSet.whiteSpace.contains '#' = false := by decide
  rw [isShownLine, isBlankLine, toList_indented, heq, List.all_append, List.all_cons, hmark]
  simp

private theorem fills_writeExternals {good : String → Bool} {items : List Node} {code : List Code}
    (h : ∀ item ∈ items, ∀ code, (writeExternal options .outermost item).result = .ok code →
      Fills good (Code.allLinesAt 0 code))
    (hcode : (writeExternals options items).result = .ok code) : Fills good (Code.allLinesAt 0 code) := by
  induction items generalizing code with
  | nil =>
    cases hcode
    exact .nil
  | cons item rest ih =>
    obtain ⟨first, hfirst, hcode⟩ := Traced.bind_eq_ok.mp hcode
    obtain ⟨others, hothers, hcode⟩ := Traced.bind_eq_ok.mp hcode
    cases hcode
    rw [Code.allLinesAt_append]
    exact .append (h item (List.mem_cons_self ..) first hfirst)
      (ih (fun other hother => h other (List.mem_cons_of_mem item hother)) hothers)

private theorem fills_shown {item : Node} {code : List Code} (hgoto : ∀ call ∈ options.gotoCall, IsIdentifier call)
    (h : Everywhere IsLexical item) (hcode : (writeExternal options .outermost item).result = .ok code) :
    Fills isShownLine (Code.allLinesAt 0 code) := by
  refine (fills_allLinesAt (laid_writeExternal h hcode) (fun text htext => ?_) (fun header hheader depth => ?_) 0).1
  · rcases isClause_lineText hgoto (fun _ hnode => hnode) htext with hclause | ⟨hcomment, -⟩
    · refine ⟨header_of_clause hclause, fun depth => ?_⟩
      rw [isShownLine, isBlankLine_of_starts hclause.starts]
      rfl
    · exact ⟨header_of_comment hcomment, isShownLine_of_comment hcomment⟩
  · rw [isShownLine, isBlankLine_of_starts hheader]
    rfl

private theorem fills_statement {item : Node} {code : List Code} (hgoto : ∀ call ∈ options.gotoCall, IsIdentifier call)
    (h : Everywhere IsLexical item) (hcomment : ∀ part ∈ item.parts, Everywhere (leavesComment · = false) part)
    (hcode : (writeExternal options .outermost item).result = .ok code) :
    Fills isStatementLine (Code.allLinesAt 0 code) := by
  cases hitem : leavesComment item with
  | true =>
    -- the comment of a pragma outside of functions belongs to no suite
    match item with
    | .labelled .. => cases hcode
    | .pragma text =>
      obtain ⟨lines, hlines, hcode⟩ := Traced.bind_eq_ok.mp hcode
      cases hlines
      cases hcode
      refine .of_forall fun line hline => ?_
      rw [List.mem_singleton.mp hline, bareText_indented, header_of_comment]
      rw [String.toList_append]
      rfl
  | false =>
    have hboth : Everywhere (fun node => IsLexical node ∧ leavesComment node = false) item :=
      h.and (.of_parts hitem hcomment)
    refine (fills_allLinesAt (laid_writeExternal hboth hcode) (fun text htext => ?_)
      (fun header hheader depth => isStatementLine_of_starts hheader depth) 0).1
    rcases isClause_lineText hgoto (fun _ hnode => hnode.1) htext with hclause | ⟨-, node, ⟨-, hnone⟩, hnode⟩
    · exact ⟨header_of_clause hclause, isStatementLine_of_starts hclause.starts⟩
    · rw [hnone] at hnode
      cases hnode

/-- In the code of a unit over the tokens of C each header is followed by a line of its suite that is not blank, and by
a statement if no label and no pragma stands inside an item of the unit. -/
theorem fills_generate {options : UnitOptions} {items : List Node} {document : Document}
    (hgoto : ∀ call ∈ options.gotoCall, IsIdentifier call) (htokens : ∀ item ∈ items, Everywhere IsLexical item)
    (hdocument : generate options (.unit items) = .ok document) :
    ∀ block ∈ document.blocks, Fills isShownLine block ∧
      ((∀ item ∈ items, ∀ part ∈ item.parts, Everywhere (leavesComment · = false) part) →
        Fills isStatementLine block) := by
  rw [generate_eq, writeUnit] at hdocument
  cases hcode : (writeExternals options items).result with
  | error cause =>
    rw [hcode] at hdocument
    cases hdocument
  | ok code =>
    rw [hcode] at hdocument
    cases hdocument
    intro block hblock
    rw [List.mem_singleton.mp hblock, Code.lines_eq]
    constructor
    · exact fills_writeExternals (fun item hitem _ hresult => fills_shown hgoto (htokens item hitem) hresult) hcode
    · intro hcomment
      refine fills_writeExternals (fun item hitem _ hresult => ?_) hcode
      exact fills_statement hgoto (htokens item hitem) (hcomment item hitem) hresult

/-- `void f() { body }`. -/
def voidFunction (body : List Node) : Node :=
  .function (.decl (some "f") [] [] (.functionType none (.typeDecl (some "f") (.identifierType ["void"]))) none none) []
    (.block body)

/-- The node is over the tokens of C and leaves no comment. -/
private def IsSilent (node : Node) : Prop := IsLexical node ∧ leavesComment node = false

private theorem silent_of_parts {node : Node} (hnames : ∀ name ∈ node.names, IsIdentifier name)
    (hconstants : node.constants = []) (hwords : node ≠ .identifierType [])
    (hoperators : ∀ op operand, node ≠ .unary op operand) (hcomment : leavesComment node = false)
    (h : ∀ part ∈ node.parts, Everywhere IsSilent part) : Everywhere IsSilent node := by
  have hlexical : IsLexical node :=
    ⟨hnames, by simp [hconstants], hwords, fun op operand heq => absurd heq (hoperators op operand)⟩
  exact .of_parts ⟨hlexical, hcomment⟩ h

private theorem silent_voidFunction {body : List Node} (h : ∀ stmt ∈ body, Everywhere IsSilent stmt) :
    Everywhere IsSilent (voidFunction body) := by
  have hf : IsIdentifier "f" := ⟨'f', [], rfl, by decide, by simp⟩
  have hword : ['o', 'i', 'd'].all Host.isWordChar = true := by decide
  have hvoid : IsIdentifier "void" := ⟨'v', ['o', 'i', 'd'], rfl, by decide, List.all_eq_true.mp hword⟩
  have hwords : Everywhere IsSilent (.identifierType ["void"]) :=
    silent_of_parts (by simpa [Node.names] using hvoid) rfl (by simp) (by simp) rfl (by simp [Node.parts])
  have htype : Everywhere IsSilent (.typeDecl (some "f") (.identifierType ["void"])) :=
    silent_of_parts (by simpa [Node.names] using hf) rfl (by simp) (by simp) rfl (by simpa [Node.parts] using hwords)
  have hresult : Everywhere IsSilent (.functionType none (.typeDecl (some "f") (.identifierType ["void"]))) :=
    silent_of_parts (by simp [Node.names]) rfl (by simp) (by simp) rfl (by simpa [Node.parts] using htype)
  have hdecl : Everywhere IsSilent
      (.decl (some "f") [] [] (.functionType none (.typeDecl (some "f") (.identifierType ["void"]))) none none) :=
    silent_of_parts (by simpa [Node.names] using hf) rfl (by simp) (by simp) rfl (by simpa [Node.parts] using hresult)
  have hblock : Everywhere IsSilent (.block body) :=
    silent_of_parts (by simp [Node.names]) rfl (by simp) (by simp) rfl h
  exact silent_of_parts (by simp [voidFunction, Node.names]) rfl (by simp [voidFunction]) (by simp [voidFunction]) rfl
    (by simpa [voidFunction, Node.parts] using ⟨hdecl, hblock⟩)

/-- `void f() { if (x) ; }`. -/
def emptyBranch : Node := voidFunction [.ifElse (.ident "x") .empty none]

theorem fills_emptyBranch : ∃ document, generate {} (.unit [emptyBranch]) = .ok document ∧
    ∀ block ∈ document.blocks, Fills isShownLine block ∧ Fills isStatementLine block := by
  have hx : IsIdentifier "x" := ⟨'x', [], rfl, by decide, by simp⟩
  have htest : Everywhere IsSilent (.ident "x") :=
    silent_of_parts (by simpa [Node.names] using hx) rfl (by simp) (by simp) rfl (by simp [Node.parts])
  have hempty : Everywhere IsSilent .empty :=
    silent_of_parts (by simp [Node.names]) rfl (by simp) (by simp) rfl (by simp [Node.parts])
  have hif : Everywhere IsSilent (.ifElse (.ident "x") .empty none) :=
    silent_of_parts (by simp [Node.names]) rfl (by simp) (by simp) rfl (by simpa [Node.parts] using ⟨htest, hempty⟩)
  have hfunction : Everywhere IsSilent emptyBranch := silent_voidFunction (List.forall_mem_singleton.mpr hif)
  have hcomment : ∀ part ∈ emptyBranch.parts, Everywhere (leavesComment · = false) part :=
    fun part hpart => (hfunction.parts part hpart).mono fun _ hnode => hnode.2
  have hgoto : ∀ call ∈ UnitOptions.gotoCall {}, IsIdentifier call := by simp
  obtain ⟨document, hdocument⟩ : ∃ document, generate {} (.unit [emptyBranch]) = .ok document := ⟨_, rfl⟩
  refine ⟨document, hdocument, fun block hblock => ?_⟩
  obtain ⟨hshown, hstatement⟩ := fills_generate hgoto
    (List.forall_mem_singleton.mpr (hfunction.mono fun _ hnode => hnode.1)) hdocument block hblock
  exact ⟨hshown, hstatement (List.forall_mem_singleton.mpr hcomment)⟩

/-- `void f() { if (x) out: ; }`. -/
def labelledBranch : Node := voidFunction [.ifElse (.ident "x") (.labelled "out" .empty) none]

/-- A label leaves only a comment, which is no statement, and nothing takes the statement's place. -/
theorem not_fills_labelledBranch : ∃ document, generate {} (.unit [labelledBranch]) = .ok document ∧
    ¬∀ block ∈ document.blocks, Fills isStatementLine block := by
  obtain ⟨document, hdocument, hblocks⟩ : ∃ document, generate {} (.unit [labelledBranch]) = .ok document ∧
      document.blocks = [["", "", "def f():"] ++ "    if x:" :: ["        # label: out"]] := ⟨_, rfl, by decide⟩
  refine ⟨document, hdocument, fun hfills => ?_⟩
  rw [hblocks] at hfills
  have hblock := hfills _ (List.mem_singleton_self _)
  have hcomment : ∀ line ∈ ["        # label: out"], isStatementLine line = false := by decide
  obtain ⟨line, hline, hgood⟩ := hblock ["", "", "def f():"] "    if x:" ["        # label: out"] rfl (by decide)
  rw [hcomment line ((List.takeWhile_prefix _).subset hline)] at hgood
  cases hgood

end CUnit

end StubGen
