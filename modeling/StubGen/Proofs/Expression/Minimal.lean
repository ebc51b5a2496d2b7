import StubGen.Proofs.Expression.RoundTrip
import StubGen.Proofs.Host.Parentheses

/-!
# Expressions without parentheses to spare

With `reduce`, the text that `renderExpr` gives for an expression has as few opening parentheses as any text that is
read as the same host expression.  So no pair of them can be left out.

* `HostExpr.isTight` leaves out the two places where `renderExpr` has parentheses that reading does not need: around
  an assignment that commas or brackets bound, and around a conditional that is the last part of another one.
  Operations on names and constants have neither (`isTight_of_isOperation`).
* `IsMinimal level text expr` is what every form of expression keeps.
-/

namespace StubGen.Host

def HostExpr.isNamed : HostExpr → Bool
  | .named .. => true
  | _ => false

def HostExpr.isConditional : HostExpr → Bool
  | .conditional .. => true
  | _ => false

mutual

/-- Whether no argument, index or element is an assignment, and the last part of no conditional is one. -/
def HostExpr.isTight : HostExpr → Bool
  | .name _ => true
  | .literal _ => true
  | .binary _ left right => left.isTight && right.isTight
  | .compare first _ others => first.isTight && areTight others
  | .unary _ operand => operand.isTight
  | .conditional cond whenTrue whenFalse =>
    cond.isTight && whenTrue.isTight && whenFalse.isTight && !whenFalse.isConditional
  | .named _ value => value.isTight
  | .call callee args => callee.isTight && areTight args && !args.any HostExpr.isNamed
  | .subscript base index => base.isTight && index.isTight && !index.isNamed
  | .attribute base _ => base.isTight
  | .list items => areTight items && !items.any HostExpr.isNamed
termination_by structural expr => expr

def areTight : List HostExpr → Bool
  | [] => true
  | expr :: rest => expr.isTight && areTight rest
termination_by structural exprs => exprs

end

theorem openings_append (left right : List Char) : openings (left ++ right) = openings left + openings right :=
  List.count_append ..

private theorem rowsFrom_le (isRow : Rule → Bool) : rowsFrom isRow ≤ operatorRules.length := Nat.sub_le ..

/-- Only conditionals and assignments are looser than all operators. -/
private theorem looseness_le {expr : HostExpr} (hnamed : expr.isNamed = false) (hcond : expr.isConditional = false) :
    expr.looseness ≤ operatorRules.length := by
  cases expr with
  | binary => exact rowsFrom_le _
  | compare => exact rowsFrom_le _
  | unary => exact rowsFrom_le _
  | conditional => cases hcond
  | named => cases hnamed
  | _ => exact Nat.zero_le _

private theorem looseness_le_succ {expr : HostExpr} (hnamed : expr.isNamed = false) :
    expr.looseness ≤ operatorRules.length + 1 := by
  cases hcond : expr.isConditional with
  | false => exact (looseness_le hnamed hcond).trans (Nat.le_succ _)
  | true =>
    cases expr with
    | conditional => exact Nat.le_refl _
    | _ => cases hcond

theorem looseness_named {expr : HostExpr} (h : expr.isNamed = true) : expr.looseness = operatorRules.length + 2 := by
  cases expr with
  | named => rfl
  | _ => cases h

/-- An assignment has parentheses of its own in every place that bounds it by no comma or bracket. -/
theorem parensAt_isNamed {expr : HostExpr} (h : expr.isNamed = true) {bound : Nat}
    (hbound : bound ≤ operatorRules.length + 1) : parensAt bound expr = expr.parens + 1 := by
  have hloose := looseness_named h
  rw [parensAt, HostExpr.wraps, if_neg (by omega)]

/-- Between commas or brackets nothing but an assignment could lose its parentheses. -/
theorem parensAt_bounded {expr : HostExpr} (h : expr.isNamed = false) :
    parensAt (operatorRules.length + 2) expr = parensAt (operatorRules.length + 1) expr := by
  have hloose := looseness_le_succ h
  rw [parensAt_of_le hloose, parensAt_of_le (hloose.trans (Nat.le_succ _))]

/-- The last part of a conditional could lose its parentheses only if it is a conditional. -/
theorem parensAt_last {expr : HostExpr} (h : expr.isConditional = false) :
    parensAt (operatorRules.length + 1) expr = parensAt operatorRules.length expr := by
  cases hnamed : expr.isNamed with
  | true => rw [parensAt_isNamed hnamed (Nat.le_refl _), parensAt_isNamed hnamed (Nat.le_succ _)]
  | false =>
    have hloose := looseness_le hnamed h
    rw [parensAt_of_le hloose, parensAt_of_le (hloose.trans (Nat.le_succ _))]

end StubGen.Host

namespace StubGen.CUnit

open Host

/-- A text of this level has no more opening parentheses than its expression needs. -/
structure IsMinimal (level : Level) (text : String) (expr : HostExpr) : Prop where
  openings_eq : openings text.toList = parensAt (operatorRules.length + 1) expr
  /-- An assignment is an atom, since its text has parentheses already. -/
  level_eq : expr.looseness + level.rank = operatorRules.length + 1 ∨ expr.isNamed = true ∧ level = .atom

variable {level parent : Level} {text : String} {expr : HostExpr}

/-! ### Operands -/

private theorem needsParens_left (hparent : parent ≠ .compare) :
    needsParens true parent .left level = true ↔ level.rank < parent.rank := by
  cases parent <;> first | exact absurd rfl hparent | (cases level <;> decide)

private theorem needsParens_left_compare :
    needsParens true .compare .left level = true ↔ level.rank ≤ Level.compare.rank := by
  cases level <;> decide

private theorem needsParens_right (hparent : parent ≠ .atom) :
    needsParens true parent .right level = true ↔ level.rank ≤ parent.rank := by
  cases parent <;> first | exact absurd rfl hparent | (cases level <;> decide)

private theorem rank_le_atom (level : Level) : level.rank ≤ operatorRules.length + 1 := by
  cases level <;> decide

/-- An operand has parentheses exactly where its expression is too loose. -/
private theorem openings_enclose {side : Side} {bound : Nat} (h : IsMinimal level text expr)
    (hbound : bound ≤ operatorRules.length + 1)
    (hparens : needsParens true parent side level = true ↔ bound + level.rank < operatorRules.length + 1) :
    openings (enclose true parent side level text).toList = parensAt bound expr := by
  rcases h.level_eq with hloose | ⟨hnamed, hatom⟩
  · have hparensAt : openings text.toList = expr.parens := by
      rw [h.openings_eq, parensAt_of_le (by omega)]
    by_cases hneeds : needsParens true parent side level = true
    · have hlooser := hparens.mp hneeds
      rw [enclose, if_pos hneeds, String.toList_append, String.toList_append, openings_append, openings_append,
        hparensAt, parensAt, HostExpr.wraps, if_neg (by omega)]
      exact Nat.add_comm 1 _
    · have hbounded : ¬bound + level.rank < operatorRules.length + 1 := fun hlt => hneeds (hparens.mpr hlt)
      rw [enclose, if_neg hneeds, hparensAt, parensAt_of_le (by omega)]
  · subst hatom
    rw [enclose, needsParens_atom, if_neg Bool.false_ne_true, h.openings_eq, parensAt_isNamed hnamed (Nat.le_refl _),
      parensAt_isNamed hnamed hbound]

private theorem openings_left (h : IsMinimal level text expr) (hparent : parent ≠ .compare) :
    openings (enclose true parent .left level text).toList =
      parensAt (operatorRules.length + 1 - parent.rank) expr := by
  have hrank := rank_le_atom parent
  refine openings_enclose h (Nat.sub_le ..) ?_
  rw [needsParens_left hparent]
  omega

/-- Neither operand of a comparison is a comparison. -/
private theorem openings_left_compare (h : IsMinimal level text expr) :
    openings (enclose true .compare .left level text).toList =
      parensAt (operatorRules.length - Level.compare.rank) expr := by
  have hrank : Level.compare.rank ≤ operatorRules.length := by decide
  refine openings_enclose h (by omega) ?_
  rw [needsParens_left_compare]
  omega

private theorem openings_right (h : IsMinimal level text expr) (hparent : parent ≠ .atom) :
    openings (enclose true parent .right level text).toList = parensAt (operatorRules.length - parent.rank) expr := by
  have hrank : parent.rank ≤ operatorRules.length := by
    revert hparent
    cases parent <;> decide
  refine openings_enclose h (by omega) ?_
  rw [needsParens_right hparent]
  omega

/-! ### Operators -/

private theorem rule_of_rank {rule : Rule} (hternary : level ≠ .ternary)
    (h : operatorRules[level.rank - 1]? = some rule) :
    rule :: operatorRules.drop level.rank <:+ operatorRules ∧
      (operatorRules.drop level.rank).length + level.rank = operatorRules.length := by
  have hpos : level.rank ≠ 0 := fun hzero => hternary (Level.rank_injective hzero)
  obtain ⟨hlt, hget⟩ := List.getElem?_eq_some_iff.mp h
  refine ⟨?_, by rw [List.length_drop]; omega⟩
  have hdrop := List.drop_eq_getElem_cons hlt
  rw [hget, Nat.sub_add_cancel (Nat.pos_of_ne_zero hpos)] at hdrop
  rw [← hdrop]
  exact List.drop_suffix ..

/-- An expression of the rule above the rows `tighter`. -/
private theorem isMinimal_of_rows {tighter : List Rule} (hrank : tighter.length + level.rank = operatorRules.length)
    (hloose : expr.looseness = tighter.length + 1)
    (htext : openings text.toList = parensAt (tighter.length + 1) expr) : IsMinimal level text expr := by
  refine ⟨?_, Or.inl (by omega)⟩
  rw [htext, parensAt_of_le (by omega), parensAt_of_le (by omega)]

private theorem isMinimal_atom (hloose : expr.looseness = 0) (htext : openings text.toList = parensAt 0 expr) :
    IsMinimal .atom text expr := by
  refine ⟨?_, Or.inl (by rw [hloose]; rfl)⟩
  rw [htext, parensAt_of_le (by omega), parensAt_of_le (by omega)]

private theorem isMinimal_literal (text : String) : IsMinimal .atom text (.literal text) := by
  refine isMinimal_atom rfl ?_
  rw [parensAt_of_le (Nat.zero_le _), HostExpr.parens]

private theorem openings_spacedMark {mark : String} (h : mark ∈ spacedMarks) : openings mark.toList = 0 := by
  revert mark
  decide

private theorem isMinimal_binary {op l r : String} {a b : Level} {left right : HostExpr}
    (hop : binaryLevel? op = some level) (hl : IsMinimal a l left) (hr : IsMinimal b r right) :
    IsMinimal level
      (enclose true level .left a l ++ " " ++ operatorText op ++ " " ++ enclose true level .right b r)
      (applyBinary op left right) := by
  obtain ⟨hmark, hternary, hatom, hrow⟩ := binaryLevel_cases hop
  have hblank : openings " ".toList = 0 := rfl
  have hright := openings_right hr hatom
  rcases hrow with ⟨ops, hrow, hmem, happly⟩ | ⟨rfl, ops, hrow, hmem, happly⟩
  -- operators that group to the left, then comparisons
  · obtain ⟨hsuffix, hrank⟩ := rule_of_rank hternary hrow
    have hcompare : level ≠ .compare := by
      rintro rfl
      cases hrow
    have hleft := openings_left hl hcompare
    rw [happly]
    refine isMinimal_of_rows hrank (rowsFrom_grouped hsuffix hmem) ?_
    rw [parens_binary hsuffix hmem]
    simp only [String.toList_append, openings_append, openings_spacedMark hmark, hblank, hleft, hright, Nat.add_zero]
    rw [← hrank, Nat.add_sub_cancel, Nat.add_right_comm, Nat.add_sub_cancel]
  · obtain ⟨hsuffix, hrank⟩ := rule_of_rank hternary hrow
    have hleft := openings_left_compare hl
    rw [happly]
    refine isMinimal_of_rows hrank (rowsFrom_chained hsuffix) ?_
    rw [parens_compare hsuffix, allParens_cons, allParens]
    simp only [String.toList_append, openings_append, openings_spacedMark hmark, hblank, hleft, hright, Nat.add_zero]
    rw [← hrank, Nat.add_sub_cancel]

private theorem isMinimal_leading {op start : String} {ops : List String} (hternary : level ≠ .ternary)
    (hrow : operatorRules[level.rank - 1]? = some (.leading ops)) (hop : op ∈ ops) {inner : Level}
    (hstart : openings start.toList = 0) (h : IsMinimal inner text expr) :
    IsMinimal level (start ++ enclose true level .left inner text) (.unary op expr) := by
  obtain ⟨hsuffix, hrank⟩ := rule_of_rank hternary hrow
  have hcompare : level ≠ .compare := by
    rintro rfl
    cases hrow
  refine isMinimal_of_rows hrank (rowsFrom_leading hsuffix hop) ?_
  rw [parens_unary hsuffix hop, String.toList_append, openings_append, hstart, openings_left h hcompare, ← hrank,
    Nat.zero_add, Nat.add_right_comm, Nat.add_sub_cancel]

private theorem isMinimal_not (h : IsMinimal level text expr) :
    IsMinimal .not ("not " ++ enclose true .not .left level text) (.unary "not" expr) :=
  isMinimal_leading (by decide) (show _ = some (Rule.leading ["not"]) from rfl) (by decide) rfl h

private theorem isMinimal_sign {op : String} (hop : op ∈ ["-", "+", "~"]) (h : IsMinimal level text expr) :
    IsMinimal .unary (op ++ enclose true .unary .left level text) (.unary op expr) := by
  have hstart : ∀ sign ∈ ["-", "+", "~"], openings sign.toList = 0 := by decide
  exact isMinimal_leading (by decide) rfl hop (hstart op hop) h

private theorem isMinimal_ternary {t c f : String} {tl cl fl : Level} {whenTrue cond whenFalse : HostExpr}
    (ht : IsMinimal tl t whenTrue) (hc : IsMinimal cl c cond) (hf : IsMinimal fl f whenFalse)
    (hlast : whenFalse.isConditional = false) :
    IsMinimal .ternary (enclose true .ternary .right tl t ++ " if " ++ enclose true .ternary .right cl c ++ " else " ++
      enclose true .ternary .right fl f) (.conditional cond whenTrue whenFalse) := by
  have hif : openings " if ".toList = 0 := rfl
  have helse : openings " else ".toList = 0 := rfl
  have hatom : Level.ternary ≠ .atom := by decide
  refine ⟨?_, Or.inl rfl⟩
  rw [parensAt_conditional, parensAt_last hlast]
  simp only [String.toList_append, openings_append, hif, helse, openings_right ht hatom, openings_right hc hatom,
    openings_right hf hatom, Nat.add_zero]
  rfl

/-! ### Names, calls and lists -/

private theorem openings_identifier {name : String} (h : IsIdentifier name) : openings name.toList = 0 := by
  obtain ⟨c, rest, hname, hc, hrest⟩ := h
  have hparen : isWordChar '(' = false := by decide
  rw [openings, List.count_eq_zero, hname]
  intro hmem
  rcases List.mem_cons.mp hmem with rfl | hmem
  · rw [isWordChar_of_isWordStart hc] at hparen
    cases hparen
  · rw [hrest _ hmem] at hparen
    cases hparen

private theorem isMinimal_name {name : String} (h : IsIdentifier name) : IsMinimal .atom name (.name name) :=
  isMinimal_atom rfl (openings_identifier h)

private theorem isMinimal_named {name : String} (hname : IsIdentifier name) (h : IsMinimal level text expr) :
    IsMinimal .atom ("(" ++ name ++ " := " ++ text ++ ")") (.named name expr) := by
  have hopen : openings "(".toList = 1 := rfl
  have hmark : openings " := ".toList = 0 := rfl
  have hclose : openings ")".toList = 0 := rfl
  have hparens : (HostExpr.named name expr).parens = parensAt (operatorRules.length + 1) expr := rfl
  refine ⟨?_, Or.inr ⟨rfl, rfl⟩⟩
  rw [parensAt_isNamed rfl (Nat.le_refl _), hparens]
  simp only [String.toList_append, openings_append, hopen, hmark, hclose, openings_identifier hname, h.openings_eq]
  omega

private theorem openings_commas {texts : List String} {exprs : List HostExpr}
    (h : List.Forall₂ (fun text expr => openings text.toList = parensAt (operatorRules.length + 2) expr) texts exprs) :
    openings (", ".intercalate texts).toList = allParens (operatorRules.length + 2) exprs := by
  have hcomma : openings ", ".toList = 0 := rfl
  induction h with
  | nil => rfl
  | @cons text expr texts exprs htext htexts ih =>
    rw [allParens_cons]
    cases htexts with
    | nil =>
      rw [String.intercalate_singleton, htext]
      rfl
    | cons =>
      rw [String.intercalate_cons_cons, String.toList_append, String.toList_append, openings_append, openings_append,
        htext, hcomma, ih, Nat.add_zero]

private theorem openings_base (h : IsMinimal level text expr) :
    openings (enclose true .atom .left level text).toList = parensAt 0 expr :=
  openings_left h (by decide)

private theorem isMinimal_call {texts : List String} {args : List HostExpr} (h : IsMinimal level text expr)
    (hargs : openings (", ".intercalate texts).toList = allParens (operatorRules.length + 2) args) :
    IsMinimal .atom (enclose true .atom .left level text ++ "(" ++ ", ".intercalate texts ++ ")")
      (.call expr args) := by
  have hopen : openings "(".toList = 1 := rfl
  have hclose : openings ")".toList = 0 := rfl
  refine isMinimal_atom rfl ?_
  rw [parensAt_call]
  simp only [String.toList_append, openings_append, hopen, hclose, hargs, openings_base h, Nat.add_zero]

private theorem isMinimal_subscript {i : String} {index : HostExpr} (h : IsMinimal level text expr)
    (hindex : openings i.toList = parensAt (operatorRules.length + 2) index) :
    IsMinimal .atom (enclose true .atom .left level text ++ "[" ++ i ++ "]") (.subscript expr index) := by
  have hopen : openings "[".toList = 0 := rfl
  have hclose : openings "]".toList = 0 := rfl
  refine isMinimal_atom rfl ?_
  rw [parensAt_subscript]
  simp only [String.toList_append, openings_append, hopen, hclose, hindex, openings_base h, Nat.add_zero]

private theorem isMinimal_attribute {field : String} (h : IsMinimal level text expr) (hfield : IsIdentifier field) :
    IsMinimal .atom (enclose true .atom .left level text ++ "." ++ field) (.attribute expr field) := by
  have hpoint : openings ".".toList = 0 := rfl
  refine isMinimal_atom rfl ?_
  rw [parensAt_attribute]
  simp only [String.toList_append, openings_append, hpoint, openings_identifier hfield, openings_base h, Nat.add_zero]

private theorem isMinimal_list {texts : List String} {items : List HostExpr}
    (hitems : openings (", ".intercalate texts).toList = allParens (operatorRules.length + 2) items) :
    IsMinimal .atom ("[" ++ ", ".intercalate texts ++ "]") (.list items) := by
  have hopen : openings "[".toList = 0 := rfl
  have hclose : openings "]".toList = 0 := rfl
  refine isMinimal_atom rfl ?_
  rw [parensAt_list]
  simp only [String.toList_append, openings_append, hopen, hclose, hitems, Nat.zero_add, Nat.add_zero]

/-! ### All expressions -/

private theorem IsMinimal.bounded (h : IsMinimal level text expr) (hnamed : expr.isNamed = false) :
    openings text.toList = parensAt (operatorRules.length + 2) expr := by
  rw [h.openings_eq, parensAt_bounded hnamed]

private theorem isTight_applyBinary (op : String) (left right : HostExpr) :
    (applyBinary op left right).isTight = (left.isTight && right.isTight) := by
  unfold applyBinary
  split
  · rfl
  · split
    · rfl
    · split
      · simp [HostExpr.isTight, areTight]
      · rfl

/-- Whether an expression is made from names and constants by operators and casts alone. -/
def isOperation : Node → Bool
  | .constant .. => true
  | .ident _ => true
  | .binary _ left right => isOperation left && isOperation right
  | .unary op operand => op ∈ ["!", "-", "+", "~", "&", "*"] && isOperation operand
  | .cast _ operand => isOperation operand
  | _ => false
termination_by structural expr => expr

/-- Operators put no assignments or conditionals between commas or at the end of conditionals. -/
theorem isTight_of_isOperation {expr : Node} (h : isOperation expr = true) : (hostExpr expr).isTight = true := by
  fun_induction isOperation expr with
  | case1 => rfl
  | case2 => rfl
  | case3 op left right ihl ihr =>
    rw [Bool.and_eq_true] at h
    rw [hostExpr, isTight_applyBinary, ihl h.1, ihr h.2]
    rfl
  | case4 op operand ih =>
    rw [Bool.and_eq_true, decide_eq_true_iff] at h
    obtain ⟨hop, hoperand⟩ := h
    simp only [List.mem_cons, List.not_mem_nil, or_false] at hop
    rcases hop with rfl | rfl | rfl | rfl | rfl | rfl <;> exact ih hoperand
  | case5 type operand ih => exact ih h
  | case6 => cases h

private theorem openings_renderExprs {exprs : List Node} {texts : List String}
    (h : ∀ expr ∈ exprs, (hostExpr expr).isTight = true → ∀ text, (renderExpr true expr).result = .ok text →
      IsMinimal (binding expr) text (hostExpr expr))
    (htight : areTight (hostExprs exprs) = true) (hnamed : (hostExprs exprs).any HostExpr.isNamed = false)
    (htexts : (renderExprs true exprs).result = .ok texts) :
    openings (", ".intercalate texts).toList = allParens (operatorRules.length + 2) (hostExprs exprs) := by
  refine openings_commas ?_
  induction exprs generalizing texts with
  | nil =>
    cases htexts
    exact .nil
  | cons expr rest ih =>
    obtain ⟨first, others, hfirst, hothers, rfl⟩ := renderExprs_cons.mp htexts
    rw [hostExprs, areTight, Bool.and_eq_true] at htight
    rw [hostExprs, List.any_cons, Bool.or_eq_false_iff] at hnamed
    have hminimal := h expr (List.mem_cons_self ..) htight.1 first hfirst
    exact .cons (hminimal.bounded hnamed.1)
      (ih (fun other hother => h other (List.mem_cons_of_mem _ hother)) htight.2 hnamed.2 hothers)

/-- The text of an expression has no parentheses to spare. -/
theorem isMinimal_renderExpr {expr : Node} (h : IsExpression expr) (htight : (hostExpr expr).isTight = true)
    {text : String} (htext : (renderExpr true expr).result = .ok text) :
    IsMinimal (binding expr) text (hostExpr expr) := by
  induction h generalizing text with
  | @constant type value hvalue =>
    cases htext
    exact isMinimal_literal _
  | ident hname =>
    cases htext
    exact isMinimal_name (isIdentifier_escapeName hname)
  | @binary op left right _ _ ihl ihr =>
    obtain ⟨level, l, r, hop, hl, hr, rfl⟩ := renderExpr_binary.mp htext
    rw [hostExpr] at htight ⊢
    rw [isTight_applyBinary, Bool.and_eq_true] at htight
    rw [binding, hop]
    exact isMinimal_binary hop (ihl htight.1 hl) (ihr htight.2 hr)
  | @not operand _ ih =>
    obtain ⟨inner, hinner, rfl⟩ := renderExpr_not.mp htext
    exact isMinimal_not (ih htight hinner)
  | @sign op operand hop _ ih =>
    obtain ⟨inner, hinner, rfl⟩ := (renderExpr_sign hop).mp htext
    obtain ⟨hlevel, hexpr⟩ : binding (.unary op operand) = .unary ∧
        hostExpr (.unary op operand) = .unary op (hostExpr operand) := by
      simp only [List.mem_cons, List.not_mem_nil, or_false] at hop
      rcases hop with rfl | rfl | rfl <;> exact ⟨rfl, rfl⟩
    rw [hexpr] at htight ⊢
    rw [hlevel]
    exact isMinimal_sign hop (ih htight hinner)
  | @address op operand hop _ ih =>
    rw [renderExpr_address hop] at htext
    obtain ⟨hlevel, hexpr⟩ : binding (.unary op operand) = binding operand ∧
        hostExpr (.unary op operand) = hostExpr operand := by
      simp only [List.mem_cons, List.not_mem_nil, or_false] at hop
      rcases hop with rfl | rfl <;> exact ⟨rfl, rfl⟩
    rw [hexpr] at htight ⊢
    rw [hlevel]
    exact ih htight htext
  | @wordOperator op operand hop hkeyword _ ih =>
    have hother := notMem_unaryOperators hop
    obtain ⟨inner, hinner, rfl⟩ := (renderExpr_wordOperator hother).mp htext
    simp only [unaryOperators, List.mem_cons, List.not_mem_nil, or_false, not_or] at hother
    obtain ⟨hlevel, hexpr⟩ : binding (.unary op operand) = .atom ∧
        hostExpr (.unary op operand) = .call (.name op) [hostExpr operand] := by
      simp [binding, hostExpr, hother]
    rw [hexpr] at htight ⊢
    rw [hlevel]
    simp only [HostExpr.isTight, areTight, List.any_cons, List.any_nil, Bool.and_eq_true, Bool.not_eq_true',
      Bool.or_false, Bool.and_true, Bool.true_and] at htight
    have hargs := openings_commas (.cons ((ih htight.1 hinner).bounded htight.2) .nil)
    simpa [enclose, needsParens_atom] using isMinimal_call (isMinimal_name hop) hargs
  | @assign op name value hname _ ih =>
    obtain ⟨inner, hinner, rfl⟩ := renderExpr_assign.mp htext
    have hescaped := isIdentifier_escapeName hname
    rw [hostExpr] at htight ⊢
    split at hinner
    · rw [if_pos ‹_›] at htight ⊢
      exact isMinimal_named hescaped (ih htight hinner)
    · obtain ⟨level, l, r, hop, hl, hr, rfl⟩ := renderBinary_eq_ok.mp hinner
      cases hl
      rw [if_neg ‹_›] at htight ⊢
      rw [HostExpr.isTight, isTight_applyBinary, Bool.and_eq_true] at htight
      exact isMinimal_named hescaped (isMinimal_binary hop (isMinimal_name hescaped) (ih htight.2 hr))
  | ternary _ _ _ ihc iht ihf =>
    obtain ⟨t, c, f, ht, hc, hf, rfl⟩ := renderExpr_ternary.mp htext
    simp only [hostExpr, HostExpr.isTight, Bool.and_eq_true, Bool.not_eq_true'] at htight
    obtain ⟨⟨⟨hcond, htrue⟩, hfalse⟩, hlast⟩ := htight
    exact isMinimal_ternary (iht htrue ht) (ihc hcond hc) (ihf hfalse hf) hlast
  | call _ _ ih ihargs =>
    obtain ⟨c, texts, hc, htexts, rfl⟩ := renderExpr_call.mp htext
    rw [hostExpr_call] at htight ⊢
    simp only [HostExpr.isTight, Bool.and_eq_true, Bool.not_eq_true'] at htight
    obtain ⟨⟨hcallee, hargs⟩, hnamed⟩ := htight
    exact isMinimal_call (ih hcallee hc)
      (openings_renderExprs (fun arg harg htight _ => ihargs arg harg htight) hargs hnamed htexts)
  | subscript _ _ ihb ihi =>
    obtain ⟨b, i, hb, hi, rfl⟩ := renderExpr_subscript.mp htext
    simp only [hostExpr, HostExpr.isTight, Bool.and_eq_true, Bool.not_eq_true'] at htight
    obtain ⟨⟨hbase, hindex⟩, hnamed⟩ := htight
    exact isMinimal_subscript (ihb hbase hb) ((ihi hindex hi).bounded hnamed)
  | member access _ _ hfield ih =>
    obtain ⟨b, f, hb, hf, rfl⟩ := renderExpr_member.mp htext
    cases hf
    exact isMinimal_attribute (ih htight hb) (isIdentifier_escapeName hfield)
  | cast type _ ih => exact ih htight htext
  | single _ ih => exact ih htight htext
  | @initList exprs hexprs ih =>
    have hplain : exprs.any isDesignated = false := by
      rw [List.any_eq_false]
      intro expr hexpr
      have := hexprs expr hexpr
      cases this <;> simp [isDesignated]
    obtain ⟨texts, htexts, rfl⟩ := (renderExpr_initList hplain).mp htext
    simp only [hostExpr, HostExpr.isTight, Bool.and_eq_true, Bool.not_eq_true'] at htight
    exact isMinimal_list (openings_renderExprs (fun expr hexpr htight _ => ih expr hexpr htight) htight.1 htight.2
      htexts)

/-- No text that is read as the same host expression has fewer opening parentheses.  So without any pair of its
parentheses the text is read as another host expression, or as none. -/
theorem fewest_openings_renderExpr {expr : Node} (h : IsExpression expr) (htight : (hostExpr expr).isTight = true)
    {text : String} (htext : (renderExpr true expr).result = .ok text) :
    readExpr text = some (hostExpr expr) ∧
      (∀ other, readExpr other = some (hostExpr expr) → openings text.toList ≤ openings other.toList) ∧
      ∀ before inner after, text = before ++ "(" ++ inner ++ ")" ++ after →
        readExpr (before ++ inner ++ after) ≠ some (hostExpr expr) := by
  have hfewest : ∀ other, readExpr other = some (hostExpr expr) → openings text.toList ≤ openings other.toList := by
    intro other hother
    rw [(isMinimal_renderExpr h htight htext).openings_eq]
    exact parens_le_of_readExpr hother
  refine ⟨(spells_renderExpr h htext).readExpr, hfewest, ?_⟩
  intro before inner after hpair hread
  have hopen : openings "(".toList = 1 := rfl
  have hle := hfewest _ hread
  simp only [hpair, String.toList_append, openings_append, hopen] at hle
  omega

/-- `!((a - (b - *c)) * -d)`. -/
def negatedProduct : Node :=
  .unary "!" (.binary "*" (.binary "-" (.ident "a") (.binary "-" (.ident "b") (.unary "*" (.ident "c"))))
    (.unary "-" (.ident "d")))

theorem readExpr_negatedProduct :
    (renderExpr true negatedProduct).result = .ok "not (a - (b - c)) * -d" ∧
      readExpr "not (a - b - c) * -d" ≠ some (hostExpr negatedProduct) := by
  have hname : ∀ name ∈ ["a", "b", "c", "d"], IsIdentifier name := by
    intro name hname
    simp only [List.mem_cons, List.not_mem_nil, or_false] at hname
    rcases hname with rfl | rfl | rfl | rfl <;> exact ⟨_, [], rfl, by decide, by simp⟩
  have hexpr : IsExpression negatedProduct :=
    .not (.binary "*" (.binary "-" (.ident (hname "a" (by decide))) (.binary "-" (.ident (hname "b" (by decide)))
      (.address (by decide) (.ident (hname "c" (by decide)))))) (.sign (by decide) (.ident (hname "d" (by decide)))))
  have htext : (renderExpr true negatedProduct).result = .ok "not (a - (b - c)) * -d" := by decide +kernel
  have htight : (hostExpr negatedProduct).isTight = true := isTight_of_isOperation (by decide)
  exact ⟨htext, (fewest_openings_renderExpr hexpr htight htext).2.2 "not (a - " "b - c" ") * -d" (by decide)⟩

end StubGen.CUnit
