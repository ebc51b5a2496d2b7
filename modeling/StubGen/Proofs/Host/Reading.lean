import Mathlib.Data.List.Forall2
import StubGen.Proofs.Host.Grammar

/-!
# Reading operands

`ReadsAt n tokens expr` says that `tokens` are an operand of the operators from row `n` of `operatorRules` on: before
anything that does not bind more tightly, exactly these tokens are read, and they give `expr`.

* An operand of tighter operators is an operand of looser ones (`ReadsAt.mono`).
* Each form of expression is put together from its operands (`ReadsAt.binary`, `ReadsAt.call`, …).
* `ReadsWhole` says the same of an expression that may be a conditional.
-/

namespace StubGen.Host

/-- The operators of a rule that stand between operands. -/
def Rule.between : Rule → List String
  | .grouped ops | .chained ops => ops
  | .leading _ => []

/-- The operators of a rule that stand before their operand. -/
def Rule.before : Rule → List String
  | .leading ops => ops
  | _ => []

def trailerMarks : List String := ["(", "[", "."]

/-- Neither a trailer nor an operator of `rules` stands first. -/
def Closes (rules : List Rule) (tokens : List Token) : Prop :=
  ∀ op rest, tokens = .mark op :: rest → op ∉ trailerMarks ∧ ∀ rule ∈ rules, op ∉ rule.between

/-- What the reader of `rules` does after the operand `expr` of its tightest operators. -/
def resume : List Rule → HostExpr → List Token → Option (HostExpr × List Token)
  | [], expr, tokens => readTrailers expr tokens
  | .grouped ops :: tighter, expr, tokens => readGrouped ops tighter expr tokens
  | _ :: _, expr, tokens => some (expr, tokens)

/-- What may follow an operand of `rules` so that the reader gets to `resume`. -/
def Follows : List Rule → List Token → Prop
  | [], _ => True
  | .grouped _ :: tighter, tokens => Closes tighter tokens
  | rules, tokens => Closes rules tokens

/-- The tokens are an operand of the operators of `rules`. -/
def Reads (rules : List Rule) (tokens : List Token) (expr : HostExpr) : Prop :=
  ∀ rest, Follows rules rest → readOperand rules (tokens ++ rest) = resume rules expr rest

theorem Closes.tail {rule : Rule} {rules : List Rule} {tokens : List Token} (h : Closes (rule :: rules) tokens) :
    Closes rules tokens :=
  fun op rest eq => ⟨(h op rest eq).1, fun other mem => (h op rest eq).2 other (List.mem_cons_of_mem _ mem)⟩

theorem Closes.follows {rules : List Rule} {tokens : List Token} (h : Closes rules tokens) :
    Follows rules tokens := by
  cases rules with
  | nil => trivial
  | cons rule tighter =>
    cases rule with
    | grouped ops => exact h.tail
    | chained ops => exact h
    | leading ops => exact h

private theorem shorter_append {taken : List Token} (h : 0 < taken.length) (rest : List Token) :
    rest.length < (taken ++ rest).length := by
  rw [List.length_append]
  exact Nat.lt_add_of_pos_left h

private theorem progress_append {taken : List Token} (h : 0 < taken.length) (rest : List Token) :
    progress (taken ++ rest) rest = some ⟨shorter_append h rest⟩ :=
  progress_eq (shorter_append h rest)

private theorem expect_head_ne {mark : String} {tokens : List Token} (h : tokens.head? ≠ some (.mark mark)) :
    expect mark tokens = none := by
  cases tokens with
  | nil => rfl
  | cons token rest =>
    cases token with
    | mark found =>
      have hne : found ≠ mark := by simpa using h
      simp [expect, hne]
    | name text => rfl
    | literal text => rfl

private theorem readTrailers_closed {rules : List Rule} {tokens : List Token} (h : Closes rules tokens)
    (expr : HostExpr) : readTrailers expr tokens = some (expr, tokens) := by
  unfold readTrailers
  split
  · exact absurd (h _ _ rfl).1 (by decide)
  · exact absurd (h _ _ rfl).1 (by decide)
  · exact absurd (h _ _ rfl).1 (by decide)
  · rfl

private theorem readGrouped_closed {ops : List String} {tighter : List Rule} {tokens : List Token}
    (h : Closes (.grouped ops :: tighter) tokens) (expr : HostExpr) :
    readGrouped ops tighter expr tokens = some (expr, tokens) := by
  unfold readGrouped
  split
  · rename_i op rest
    have : op ∉ ops := (h op rest rfl).2 _ (List.mem_cons_self ..)
    simp [this]
  · rfl

private theorem readChained_closed {ops : List String} {tighter : List Rule} {tokens : List Token}
    (h : Closes (.chained ops :: tighter) tokens) : readChained ops tighter tokens = some ([], [], tokens) := by
  unfold readChained
  split
  · rename_i op rest
    have : op ∉ ops := (h op rest rfl).2 _ (List.mem_cons_self ..)
    simp [this]
  · rfl

/-- Before what closes it, an operand is all that is read. -/
theorem Reads.closed {rules : List Rule} {tokens rest : List Token} {expr : HostExpr} (h : Reads rules tokens expr)
    (hrest : Closes rules rest) : readOperand rules (tokens ++ rest) = some (expr, rest) := by
  rw [h rest hrest.follows]
  cases rules with
  | nil => exact readTrailers_closed hrest expr
  | cons rule tighter =>
    cases rule with
    | grouped ops => exact readGrouped_closed hrest expr
    | chained ops => rfl
    | leading ops => rfl

/-! ### Rows of the table -/

/-- The rules from row `n` on. -/
def rulesFrom (n : Nat) : List Rule := operatorRules.drop n

private theorem rulesFrom_eq_cons {n : Nat} {rule : Rule} (h : operatorRules[n]? = some rule) :
    rulesFrom n = rule :: rulesFrom (n + 1) := by
  obtain ⟨hn, rfl⟩ := List.getElem?_eq_some_iff.mp h
  exact List.drop_eq_getElem_cons hn

/-- The tokens do not start with an operator that stands before its operand in a row above `n`. -/
def StartsBelow (n : Nat) (tokens : List Token) : Prop :=
  ∃ first rest, tokens = first :: rest ∧ ∀ rule ∈ operatorRules.take n, ∀ op ∈ rule.before, first ≠ .mark op

/-- The tokens are an operand of the operators from row `n` on. -/
structure ReadsAt (n : Nat) (tokens : List Token) (expr : HostExpr) : Prop where
  reads : Reads (rulesFrom n) tokens expr
  starts : StartsBelow n tokens

theorem StartsBelow.of_le {m n : Nat} {tokens : List Token} (h : StartsBelow n tokens) (hmn : m ≤ n) :
    StartsBelow m tokens := by
  obtain ⟨first, rest, rfl, hfirst⟩ := h
  exact ⟨first, rest, rfl, fun rule hrule => hfirst rule (List.take_subset_take_left _ hmn hrule)⟩

theorem StartsBelow.append {n : Nat} {tokens : List Token} (h : StartsBelow n tokens) (more : List Token) :
    StartsBelow n (tokens ++ more) := by
  obtain ⟨first, rest, rfl, hfirst⟩ := h
  exact ⟨first, rest ++ more, rfl, hfirst⟩

private theorem StartsBelow.length_pos {n : Nat} {tokens : List Token} (h : StartsBelow n tokens) :
    0 < tokens.length := by
  obtain ⟨first, rest, rfl, -⟩ := h
  simp

private theorem readsAt_pred {n : Nat} {tokens : List Token} {expr : HostExpr} (hn : n < operatorRules.length)
    (h : ReadsAt (n + 1) tokens expr) : ReadsAt n tokens expr := by
  refine ⟨?_, h.starts.of_le (by omega)⟩
  have hrow : operatorRules[n]? = some operatorRules[n] := List.getElem?_eq_getElem hn
  have hrules := rulesFrom_eq_cons hrow
  cases hrule : operatorRules[n] with
  | grouped ops =>
    rw [hrule] at hrules
    intro rest hrest
    rw [hrules] at hrest ⊢
    rw [readOperand, h.reads.closed hrest]
    simp [progress_append h.starts.length_pos, resume]
  | chained ops =>
    rw [hrule] at hrules
    intro rest hrest
    rw [hrules] at hrest ⊢
    rw [readOperand, h.reads.closed hrest.tail]
    simp [progress_append h.starts.length_pos, readChained_closed hrest, resume]
  | leading ops =>
    rw [hrule] at hrules
    intro rest hrest
    rw [hrules] at hrest ⊢
    have hread := h.reads.closed hrest.tail
    -- no operator of this row stands first
    obtain ⟨first, others, rfl, hfirst⟩ := h.starts
    have hclear := hfirst (.leading ops) (List.mem_take_iff_getElem.mpr ⟨n, by omega, hrule⟩)
    cases first with
    | mark op =>
      have : op ∉ ops := fun hop => hclear op hop rfl
      simp only [List.cons_append] at hread ⊢
      simp [readOperand, this, hread, resume]
    | name text =>
      simp only [List.cons_append] at hread ⊢
      simp [readOperand, hread, resume]
    | literal text =>
      simp only [List.cons_append] at hread ⊢
      simp [readOperand, hread, resume]

/-- An operand of tighter operators is an operand of looser ones. -/
theorem ReadsAt.mono {m n : Nat} {tokens : List Token} {expr : HostExpr} (h : ReadsAt n tokens expr) (hmn : m ≤ n)
    (hn : n ≤ operatorRules.length) : ReadsAt m tokens expr := by
  obtain ⟨k, rfl⟩ := Nat.exists_eq_add_of_le hmn
  induction k with
  | zero => exact h
  | succ k ih => exact ih (readsAt_pred (by omega) h) (by omega) (by omega)

/-! ### Operators -/

private theorem between_loosest (n : Fin operatorRules.length) :
    ∀ op ∈ operatorRules[n].between,
      op ∉ trailerMarks ∧ ∀ rule ∈ operatorRules.drop (n + 1), op ∉ rule.between := by
  revert n
  decide

/-- An operator ends the operands of all tighter ones. -/
private theorem closes_operator {n : Nat} {rule : Rule} {op : String} (hrow : operatorRules[n]? = some rule)
    (hop : op ∈ rule.between) (rest : List Token) : Closes (rulesFrom (n + 1)) (.mark op :: rest) := by
  obtain ⟨hn, rfl⟩ := List.getElem?_eq_some_iff.mp hrow
  intro other tokens heq
  obtain ⟨hmark, -⟩ := List.cons.inj heq
  cases hmark
  exact between_loosest ⟨n, hn⟩ op hop

theorem ReadsAt.binary {n : Nat} {ops : List String} {op : String} {l r : List Token} {left right : HostExpr}
    (hrow : operatorRules[n]? = some (.grouped ops)) (hop : op ∈ ops) (hl : ReadsAt n l left)
    (hr : ReadsAt (n + 1) r right) : ReadsAt n (l ++ .mark op :: r) (.binary op left right) := by
  refine ⟨?_, hl.starts.append _⟩
  intro rest hrest
  have hleft := hl.reads (.mark op :: (r ++ rest))
  rw [rulesFrom_eq_cons hrow] at hrest hleft ⊢
  rw [List.append_assoc, List.cons_append, hleft (closes_operator hrow hop _)]
  simp [resume, readGrouped, hop, hr.reads.closed hrest, progress_append hr.starts.length_pos]

theorem ReadsAt.compare {n : Nat} {ops : List String} {op : String} {l r : List Token} {left right : HostExpr}
    (hrow : operatorRules[n]? = some (.chained ops)) (hop : op ∈ ops) (hl : ReadsAt (n + 1) l left)
    (hr : ReadsAt (n + 1) r right) : ReadsAt n (l ++ .mark op :: r) (.compare left [op] [right]) := by
  refine ⟨?_, (hl.starts.of_le (by omega)).append _⟩
  intro rest hrest
  rw [rulesFrom_eq_cons hrow] at hrest ⊢
  have hleft := hl.reads.closed (closes_operator hrow hop (r ++ rest))
  have hright := hr.reads.closed hrest.tail
  rw [List.append_assoc, List.cons_append, readOperand, hleft]
  simp [progress_append hl.starts.length_pos, progress_append hr.starts.length_pos, readChained, hop, hright,
    readChained_closed hrest, resume]

private theorem before_disjoint (n : Fin operatorRules.length) :
    ∀ op ∈ operatorRules[n].before, ∀ rule ∈ operatorRules.take n, op ∉ rule.before := by
  revert n
  decide

theorem ReadsAt.unary {n : Nat} {ops : List String} {op : String} {tokens : List Token} {operand : HostExpr}
    (hrow : operatorRules[n]? = some (.leading ops)) (hop : op ∈ ops) (h : ReadsAt n tokens operand) :
    ReadsAt n (.mark op :: tokens) (.unary op operand) := by
  refine ⟨?_, .mark op, tokens, rfl, ?_⟩
  · intro rest hrest
    have hread : Closes (rulesFrom n) rest → _ := h.reads.closed
    rw [rulesFrom_eq_cons hrow] at hrest hread ⊢
    simp [readOperand, hop, hread hrest, resume]
  · intro rule hrule other hother heq
    obtain ⟨hn, hrule'⟩ := List.getElem?_eq_some_iff.mp hrow
    cases heq
    refine before_disjoint ⟨n, hn⟩ op ?_ rule hrule hother
    show op ∈ operatorRules[n].before
    rw [hrule']
    exact hop

/-! ### Whole expressions -/

/-- The tokens are an expression that may be a conditional. -/
def ReadsWhole (tokens : List Token) (expr : HostExpr) : Prop :=
  ∀ rest, Closes operatorRules rest → rest.head? ≠ some (.mark "if") →
    readConditional (tokens ++ rest) = some (expr, rest)

theorem ReadsAt.whole {n : Nat} {tokens : List Token} {expr : HostExpr} (h : ReadsAt n tokens expr)
    (hn : n ≤ operatorRules.length) : ReadsWhole tokens expr := by
  intro rest hrest hif
  have hread : readOperand operatorRules (tokens ++ rest) = some (expr, rest) :=
    (h.mono (Nat.zero_le n) hn).reads.closed hrest
  rw [readConditional, hread]
  simp [expect_head_ne hif]

private theorem closes_mark {mark : String} (h : mark ∉ trailerMarks ∧ ∀ rule ∈ operatorRules, mark ∉ rule.between)
    (rest : List Token) : Closes operatorRules (.mark mark :: rest) := by
  intro op others heq
  obtain ⟨hmark, -⟩ := List.cons.inj heq
  cases hmark
  exact h

theorem ReadsAt.conditional {t c f : List Token} {whenTrue cond whenFalse : HostExpr} (ht : ReadsAt 0 t whenTrue)
    (hc : ReadsAt 0 c cond) (hf : ReadsAt 0 f whenFalse) :
    ReadsWhole (t ++ .mark "if" :: c ++ .mark "else" :: f) (.conditional cond whenTrue whenFalse) := by
  intro rest hrest hif
  have hvalue : readOperand operatorRules (t ++ .mark "if" :: (c ++ .mark "else" :: (f ++ rest))) =
      some (whenTrue, .mark "if" :: (c ++ .mark "else" :: (f ++ rest))) :=
    ht.reads.closed (closes_mark (by decide) _)
  have htest : readOperand operatorRules (c ++ .mark "else" :: (f ++ rest)) =
      some (cond, .mark "else" :: (f ++ rest)) :=
    hc.reads.closed (closes_mark (by decide) _)
  have hother := hf.whole (Nat.zero_le _) rest hrest hif
  rw [readConditional]
  simp +arith [hvalue, htest, expect, progress, hother]

/-! ### Atoms and brackets -/

/-- The row below all operators, of names, constants and what stands in brackets. -/
def atomRow : Nat := operatorRules.length

/-- The marks that end an expression in brackets. -/
def closingMarks : List String := [")", "]", ","]

private theorem startsBelow_mark {mark : String} (h : ∀ rule ∈ operatorRules, mark ∉ rule.before) (n : Nat)
    (rest : List Token) : StartsBelow n (.mark mark :: rest) := by
  refine ⟨_, rest, rfl, fun rule hrule op hop heq => ?_⟩
  cases heq
  exact h rule (List.mem_of_mem_take hrule) hop

theorem ReadsAt.name (text : String) : ReadsAt atomRow [.name text] (.name text) := by
  refine ⟨?_, _, [], rfl, fun _ _ _ _ => by simp⟩
  intro rest _
  show readOperand [] _ = readTrailers _ rest
  simp [readOperand, readAtom, progress]

theorem ReadsAt.literal (text : String) : ReadsAt atomRow [.literal text] (.literal text) := by
  refine ⟨?_, _, [], rfl, fun _ _ _ _ => by simp⟩
  intro rest _
  show readOperand [] _ = readTrailers _ rest
  simp [readOperand, readAtom, progress]

private theorem closingMarks_close : ∀ mark ∈ closingMarks,
    mark ∉ trailerMarks ∧ (∀ rule ∈ operatorRules, mark ∉ rule.between) ∧ mark ≠ "if" ∧ mark ≠ ":=" := by
  decide

private theorem ReadsWhole.closed {tokens : List Token} {expr : HostExpr} (h : ReadsWhole tokens expr)
    (mark : String) (hmark : mark ∈ closingMarks) (rest : List Token) :
    readConditional (tokens ++ .mark mark :: rest) = some (expr, .mark mark :: rest) := by
  obtain ⟨htrailer, hrule, hif, -⟩ := closingMarks_close mark hmark
  exact h _ (closes_mark ⟨htrailer, hrule⟩ rest) (by simpa using hif)

private theorem ReadsWhole.bracketed {tokens : List Token} {expr : HostExpr} (h : ReadsWhole tokens expr)
    (mark : String) (hmark : mark ∈ closingMarks) (rest : List Token) :
    readAssignment (tokens ++ .mark mark :: rest) = some (expr, .mark mark :: rest) := by
  have hread := h.closed mark hmark rest
  unfold readAssignment
  split
  · -- a name before `:=` would be read as the whole expression
    rename_i target more heq
    have hname := (ReadsAt.name target).whole (Nat.le_refl _) (.mark ":=" :: more) (closes_mark (by decide) _) (by simp)
    rw [heq, ← List.singleton_append, hname] at hread
    simp only [Option.some.injEq, Prod.mk.injEq, List.cons.injEq, Token.mark.injEq] at hread
    exact absurd hread.2.1.symm (closingMarks_close mark hmark).2.2.2
  · exact hread

theorem ReadsWhole.parens {tokens : List Token} {expr : HostExpr} (h : ReadsWhole tokens expr) :
    ReadsAt atomRow (.mark "(" :: tokens ++ [.mark ")"]) expr := by
  refine ⟨?_, startsBelow_mark (by decide) _ _⟩
  intro rest _
  show readOperand [] _ = readTrailers _ rest
  simp +arith [readOperand, readAtom, h.bracketed ")" (by decide), expect, progress]

theorem ReadsWhole.named {tokens : List Token} {value : HostExpr} (h : ReadsWhole tokens value) (target : String) :
    ReadsAt atomRow (.mark "(" :: .name target :: .mark ":=" :: tokens ++ [.mark ")"]) (.named target value) := by
  refine ⟨?_, startsBelow_mark (by decide) _ _⟩
  intro rest _
  have hvalue := h (.mark ")" :: rest) (closes_mark (by decide) _) (by simp)
  show readOperand [] _ = readTrailers _ rest
  simp +arith [readOperand, readAtom, readAssignment, hvalue, expect, progress]

private theorem readConditional_close {close : String} (hclose : close ∈ [")", "]"]) (rest : List Token) :
    readConditional (.mark close :: rest) = none := by
  have hnone : readOperand operatorRules (.mark close :: rest) = none := by
    simp only [List.mem_cons, List.not_mem_nil, or_false] at hclose
    rcases hclose with rfl | rfl <;> simp [operatorRules, readOperand, readAtom]
  rw [readConditional, hnone]
  rfl

/-- No expression starts with a mark that ends a list. -/
private theorem ReadsWhole.head {tokens : List Token} {expr : HostExpr} (h : ReadsWhole tokens expr) :
    ∃ first rest, tokens = first :: rest ∧ ∀ close ∈ [")", "]"], first ≠ .mark close := by
  cases tokens with
  | nil =>
    have hread := h.closed ")" (by decide) []
    rw [List.nil_append, readConditional_close (by decide)] at hread
    cases hread
  | cons first rest =>
    refine ⟨first, rest, rfl, ?_⟩
    rintro close hclose rfl
    have hread := h.closed ")" (by decide) []
    rw [List.cons_append, readConditional_close hclose] at hread
    cases hread

private theorem readItems_intercalate {texts : List (List Token)} {exprs : List HostExpr}
    (h : List.Forall₂ ReadsWhole texts exprs) (close : String) (hclose : close ∈ [")", "]"]) (rest : List Token) :
    readItems close ([.mark ","].intercalate texts ++ .mark close :: rest) = some (exprs, rest) := by
  have hmark : close ∈ closingMarks := List.mem_of_mem_take (i := 2) hclose
  have hcomma : close ≠ "," := by rintro rfl; exact absurd hclose (by decide)
  induction h with
  | nil =>
    rw [readItems]
    simp
  | @cons text expr texts exprs hitem hitems ih =>
    obtain ⟨first, others, hfirst, hne⟩ := hitem.head
    have hhead : first ≠ .mark close := hne close hclose
    cases hitems with
    | nil =>
      have hread := hitem.bracketed close hmark rest
      rw [readItems]
      simp only [hfirst, List.intercalate_singleton, List.cons_append, List.head?_cons, Option.some.injEq] at hread ⊢
      simp [hhead, hread, hcomma, expect]
    | @cons text' expr' texts exprs hitem' hitems =>
      -- the item ends at the comma
      have hread := hitem.bracketed "," (by decide)
        ([.mark ","].intercalate (text' :: texts) ++ .mark close :: rest)
      rw [readItems]
      simp only [hfirst, List.intercalate_cons_cons, List.cons_append, List.append_assoc, List.head?_cons,
        Option.some.injEq, List.nil_append] at hread ⊢
      simp +arith [hhead, hread, expect, progress, ih]

theorem ReadsAt.list {texts : List (List Token)} {items : List HostExpr} (h : List.Forall₂ ReadsWhole texts items) :
    ReadsAt atomRow (.mark "[" :: [.mark ","].intercalate texts ++ [.mark "]"]) (.list items) := by
  refine ⟨?_, startsBelow_mark (by decide) _ _⟩
  intro rest _
  show readOperand [] _ = readTrailers _ rest
  simp +arith [readOperand, readAtom, readItems_intercalate h "]" (by decide), progress]

theorem ReadsAt.call {tokens : List Token} {callee : HostExpr} {texts : List (List Token)} {args : List HostExpr}
    (hcallee : ReadsAt atomRow tokens callee) (hargs : List.Forall₂ ReadsWhole texts args) :
    ReadsAt atomRow (tokens ++ .mark "(" :: [.mark ","].intercalate texts ++ [.mark ")"]) (.call callee args) := by
  refine ⟨?_, by rw [List.append_assoc]; exact hcallee.starts.append _⟩
  intro rest _
  have hread := hcallee.reads (.mark "(" :: ([.mark ","].intercalate texts ++ .mark ")" :: rest)) trivial
  show readOperand [] _ = readTrailers _ rest
  simp only [List.append_assoc, List.cons_append, List.nil_append]
  refine hread.trans ?_
  show readTrailers _ _ = _
  rw [readTrailers]
  simp +arith [readItems_intercalate hargs ")" (by decide), progress]

theorem ReadsAt.subscript {tokens others : List Token} {base index : HostExpr} (hbase : ReadsAt atomRow tokens base)
    (hindex : ReadsWhole others index) :
    ReadsAt atomRow (tokens ++ .mark "[" :: others ++ [.mark "]"]) (.subscript base index) := by
  refine ⟨?_, by rw [List.append_assoc]; exact hbase.starts.append _⟩
  intro rest _
  have hread := hbase.reads (.mark "[" :: (others ++ .mark "]" :: rest)) trivial
  show readOperand [] _ = readTrailers _ rest
  simp only [List.append_assoc, List.cons_append, List.nil_append]
  refine hread.trans ?_
  show readTrailers _ _ = _
  rw [readTrailers]
  simp +arith [hindex.bracketed "]" (by decide), expect, progress]

theorem ReadsAt.attribute {tokens : List Token} {base : HostExpr} (hbase : ReadsAt atomRow tokens base)
    (field : String) : ReadsAt atomRow (tokens ++ [.mark ".", .name field]) (.attribute base field) := by
  refine ⟨?_, hbase.starts.append _⟩
  intro rest _
  have hread := hbase.reads (.mark "." :: .name field :: rest) trivial
  show readOperand [] _ = readTrailers _ rest
  simp only [List.append_assoc, List.cons_append, List.nil_append]
  refine hread.trans ?_
  show readTrailers _ _ = _
  rw [readTrailers]

end StubGen.Host
