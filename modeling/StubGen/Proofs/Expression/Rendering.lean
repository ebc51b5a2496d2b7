import StubGen.CUnit.Expression

/-!
# What `renderExpr` accepts

One lemma for each form of expression says when `renderExpr` gives a text, and from which texts of its parts that text
is made.  Later proofs use these lemmas in place of the definition.
-/

namespace StubGen.CUnit

open Traced

-- generates the equations of `renderExpr` once, ahead of the lemmas that use them
attribute [local simp] renderExpr

variable {reduce : Bool} {text : String}

private theorem bind_pure_eq_ok {α : Type} {first : Traced α} {f : α → String} :
    (first >>= fun value => pure (f value)).result = .ok text ↔ ∃ value, first.result = .ok value ∧ text = f value := by
  rw [bind_eq_ok]
  simp only [pure_result, Except.ok.injEq, eq_comm]

theorem renderBinary_eq_ok {op : String} {left right : Operand} :
    (renderBinary reduce op left right).result = .ok text ↔
      ∃ level l r, binaryLevel? op = some level ∧ left.text.result = .ok l ∧ right.text.result = .ok r ∧
        text = enclose reduce level .left left.level l ++ " " ++ operatorText op ++ " " ++
          enclose reduce level .right right.level r := by
  unfold renderBinary
  split
  · simp [*]
  · simp only [bind_eq_ok, pure_result, Except.ok.injEq, *]
    constructor
    · rintro ⟨l, hl, r, hr, rfl⟩
      exact ⟨_, l, r, rfl, hl, hr, rfl⟩
    · rintro ⟨_, l, r, h, hl, hr, rfl⟩
      cases h
      exact ⟨l, hl, r, hr, rfl⟩

theorem renderExpr_binary {op : String} {left right : Node} :
    (renderExpr reduce (.binary op left right)).result = .ok text ↔
      ∃ level l r, binaryLevel? op = some level ∧ (renderExpr reduce left).result = .ok l ∧
        (renderExpr reduce right).result = .ok r ∧
        text = enclose reduce level .left (binding left) l ++ " " ++ operatorText op ++ " " ++
          enclose reduce level .right (binding right) r := by
  rw [renderExpr]
  exact renderBinary_eq_ok

theorem renderExpr_not {operand : Node} :
    (renderExpr reduce (.unary "!" operand)).result = .ok text ↔
      ∃ inner, (renderExpr reduce operand).result = .ok inner ∧
        text = "not " ++ enclose reduce .not .left (binding operand) inner := by
  rw [renderExpr, if_pos rfl]
  exact bind_pure_eq_ok

theorem renderExpr_sign {op : String} {operand : Node} (hop : op ∈ ["-", "+", "~"]) :
    (renderExpr reduce (.unary op operand)).result = .ok text ↔
      ∃ inner, (renderExpr reduce operand).result = .ok inner ∧
        text = op ++ enclose reduce .unary .left (binding operand) inner := by
  have hnot : op ≠ "!" := by rintro rfl; exact absurd hop (by decide)
  simp only [List.mem_cons, List.not_mem_nil, or_false] at hop
  rw [renderExpr, if_neg hnot, if_pos hop]
  exact bind_pure_eq_ok

theorem renderExpr_address {op : String} {operand : Node} (hop : op ∈ ["&", "*"]) :
    renderExpr reduce (.unary op operand) = renderExpr reduce operand := by
  have hother : op ≠ "!" ∧ ¬(op = "-" ∨ op = "+" ∨ op = "~") := by
    simp only [List.mem_cons, List.not_mem_nil, or_false] at hop
    rcases hop with rfl | rfl <;> decide
  simp only [List.mem_cons, List.not_mem_nil, or_false] at hop
  rw [renderExpr, if_neg hother.1, if_neg hother.2, if_pos hop]

/-- The operators with a form of their own. -/
def unaryOperators : List String := ["!", "-", "+", "~", "&", "*", "++", "--", "p++", "p--"]

theorem renderExpr_wordOperator {op : String} {operand : Node} (hop : op ∉ unaryOperators) :
    (renderExpr reduce (.unary op operand)).result = .ok text ↔
      ∃ inner, (renderExpr reduce operand).result = .ok inner ∧ text = op ++ "(" ++ inner ++ ")" := by
  simp only [unaryOperators, List.mem_cons, List.not_mem_nil, or_false, not_or] at hop
  have hsign : ¬(op = "-" ∨ op = "+" ∨ op = "~") := by simp [hop]
  have haddress : ¬(op = "&" ∨ op = "*") := by simp [hop]
  have hstep : ¬Node.isStepOp op := by simp [Node.isStepOp, hop]
  rw [renderExpr, if_neg hop.1, if_neg hsign, if_neg haddress, if_neg hstep]
  exact bind_pure_eq_ok

theorem renderExpr_assign {op name : String} {value : Node} :
    (renderExpr reduce (.assign op (.ident name) value)).result = .ok text ↔
      ∃ inner, (if op = "=" then renderExpr reduce value
        else renderBinary reduce (withoutEquals op) ⟨.atom, pure (escapeName name)⟩
          ⟨binding value, renderExpr reduce value⟩).result = .ok inner ∧
        text = "(" ++ escapeName name ++ " := " ++ inner ++ ")" := by
  rw [renderExpr]
  split
  · exact bind_pure_eq_ok
  · exact bind_pure_eq_ok

theorem renderExpr_ternary {cond whenTrue whenFalse : Node} :
    (renderExpr reduce (.ternary cond whenTrue whenFalse)).result = .ok text ↔
      ∃ t c f, (renderExpr reduce whenTrue).result = .ok t ∧ (renderExpr reduce cond).result = .ok c ∧
        (renderExpr reduce whenFalse).result = .ok f ∧
        text = enclose reduce .ternary .right (binding whenTrue) t ++ " if " ++
          enclose reduce .ternary .right (binding cond) c ++ " else " ++
          enclose reduce .ternary .right (binding whenFalse) f := by
  simp only [renderExpr, bind_eq_ok, pure_result, Except.ok.injEq]
  constructor
  · rintro ⟨t, ht, c, hc, f, hf, rfl⟩
    exact ⟨t, c, f, ht, hc, hf, rfl⟩
  · rintro ⟨t, c, f, ht, hc, hf, rfl⟩
    exact ⟨t, ht, c, hc, f, hf, rfl⟩

theorem renderExpr_subscript {base index : Node} :
    (renderExpr reduce (.subscript base index)).result = .ok text ↔
      ∃ b i, (renderExpr reduce base).result = .ok b ∧ (renderExpr reduce index).result = .ok i ∧
        text = enclose reduce .atom .left (binding base) b ++ "[" ++ i ++ "]" := by
  simp only [renderExpr, bind_eq_ok, pure_result, Except.ok.injEq]
  constructor
  · rintro ⟨b, hb, i, hi, rfl⟩
    exact ⟨b, i, hb, hi, rfl⟩
  · rintro ⟨b, i, hb, hi, rfl⟩
    exact ⟨b, hb, i, hi, rfl⟩

theorem renderExpr_member {base field : Node} {access : String} :
    (renderExpr reduce (.member base access field)).result = .ok text ↔
      ∃ b f, (renderExpr reduce base).result = .ok b ∧ (renderExpr reduce field).result = .ok f ∧
        text = enclose reduce .atom .left (binding base) b ++ "." ++ f := by
  simp only [renderExpr, bind_eq_ok, pure_result, Except.ok.injEq]
  constructor
  · rintro ⟨b, hb, f, hf, rfl⟩
    exact ⟨b, f, hb, hf, rfl⟩
  · rintro ⟨b, f, hb, hf, rfl⟩
    exact ⟨b, hb, f, hf, rfl⟩

theorem renderExprs_cons {expr : Node} {rest : List Node} {texts : List String} :
    (renderExprs reduce (expr :: rest)).result = .ok texts ↔
      ∃ first others, (renderExpr reduce expr).result = .ok first ∧ (renderExprs reduce rest).result = .ok others ∧
        texts = first :: others := by
  simp only [renderExprs, bind_eq_ok, pure_result, Except.ok.injEq]
  constructor
  · rintro ⟨first, hfirst, others, hothers, rfl⟩
    exact ⟨first, others, hfirst, hothers, rfl⟩
  · rintro ⟨first, others, hfirst, hothers, rfl⟩
    exact ⟨first, hfirst, others, hothers, rfl⟩

/-- The arguments of a call. -/
def argsOf : Option Node → List Node
  | none => []
  | some (.exprList args) => args
  | some arg => [arg]

theorem renderExpr_call_eq (callee : Node) (args : Option Node) :
    renderExpr reduce (.call callee args) = do
      let calleeText ← renderExpr reduce callee
      let argTexts ← renderExprs reduce (argsOf args)
      return enclose reduce .atom .left (binding callee) calleeText ++ "(" ++ ", ".intercalate argTexts ++ ")" := by
  rw [renderExpr]
  cases args with
  | none => simp [argsOf, renderExprs]
  | some arg => cases arg <;> simp [argsOf, renderExprs]

theorem renderExpr_call {callee : Node} {args : Option Node} :
    (renderExpr reduce (.call callee args)).result = .ok text ↔
      ∃ c texts, (renderExpr reduce callee).result = .ok c ∧ (renderExprs reduce (argsOf args)).result = .ok texts ∧
        text = enclose reduce .atom .left (binding callee) c ++ "(" ++ ", ".intercalate texts ++ ")" := by
  rw [renderExpr_call_eq]
  simp only [bind_eq_ok, pure_result, Except.ok.injEq]
  constructor
  · rintro ⟨c, hc, texts, htexts, rfl⟩
    exact ⟨c, texts, hc, htexts, rfl⟩
  · rintro ⟨c, texts, hc, htexts, rfl⟩
    exact ⟨c, hc, texts, htexts, rfl⟩

theorem renderExpr_initList {exprs : List Node} (h : exprs.any isDesignated = false) :
    (renderExpr reduce (.initList exprs)).result = .ok text ↔
      ∃ texts, (renderExprs reduce exprs).result = .ok texts ∧ text = "[" ++ ", ".intercalate texts ++ "]" := by
  rw [renderExpr, if_neg (by simp [h])]
  exact bind_pure_eq_ok

/-! ### Acceptance -/

private theorem isOk_bind {α β : Type} {first first' : Traced α} {next next' : α → Traced β}
    (h : first.result.isOk = first'.result.isOk) (hnext : ∀ a b, (next a).result.isOk = (next' b).result.isOk) :
    (first >>= next).result.isOk = (first' >>= next').result.isOk := by
  rw [bind_result, bind_result]
  cases hfirst : first.result with
  | ok a =>
    rw [hfirst] at h
    cases hfirst' : first'.result with
    | ok b => exact hnext a b
    | error cause => rw [hfirst'] at h; cases h
  | error cause =>
    rw [hfirst] at h
    cases hfirst' : first'.result with
    | ok b => rw [hfirst'] at h; cases h
    | error cause' => rfl

private theorem isOk_renderBinary {r s : Bool} {op : String} {a b : Level} {left left' right right' : Traced String}
    (hl : left.result.isOk = left'.result.isOk) (hr : right.result.isOk = right'.result.isOk) :
    (renderBinary r op ⟨a, left⟩ ⟨b, right⟩).result.isOk = (renderBinary s op ⟨a, left'⟩ ⟨b, right'⟩).result.isOk := by
  unfold renderBinary
  split
  · rfl
  · exact isOk_bind hl fun _ _ => isOk_bind hr fun _ _ => rfl

/-- What parentheses are left out does not decide what is accepted. -/
theorem isOk_renderExpr (r s : Bool) (expr : Node) :
    (renderExpr r expr).result.isOk = (renderExpr s expr).result.isOk := by
  apply renderExpr.induct r (fun expr => (renderExpr r expr).result.isOk = (renderExpr s expr).result.isOk)
    (fun position exprs =>
      (renderEntries r position exprs).result.isOk = (renderEntries s position exprs).result.isOk)
    (fun exprs => (renderExprs r exprs).result.isOk = (renderExprs s exprs).result.isOk)
  all_goals intros
  case case1 => rfl
  case case2 => rfl
  case case3 ihl ihr =>
    rw [renderExpr, renderExpr]
    exact isOk_renderBinary ihl ihr
  case case4 ih =>
    rw [renderExpr, renderExpr, if_pos rfl, if_pos rfl]
    exact isOk_bind ih fun _ _ => rfl
  case case5 hnot hop ih =>
    rw [renderExpr, renderExpr, if_neg hnot, if_neg hnot, if_pos hop, if_pos hop]
    exact isOk_bind ih fun _ _ => rfl
  case case6 hnot hsign hop ih =>
    rw [renderExpr, renderExpr, if_neg hnot, if_neg hnot, if_neg hsign, if_neg hsign, if_pos hop, if_pos hop]
    exact ih
  case case7 hnot hsign haddress hstep ih =>
    rw [renderExpr, renderExpr, if_neg hnot, if_neg hnot, if_neg hsign, if_neg hsign, if_neg haddress,
      if_neg haddress, if_pos hstep, if_pos hstep]
    exact isOk_bind ih fun _ _ => rfl
  case case8 hnot hsign haddress hstep ih =>
    rw [renderExpr, renderExpr, if_neg hnot, if_neg hnot, if_neg hsign, if_neg hsign, if_neg haddress,
      if_neg haddress, if_neg hstep, if_neg hstep]
    exact isOk_bind ih fun _ _ => rfl
  case case9 ih =>
    rw [renderExpr, renderExpr, if_pos rfl, if_pos rfl]
    exact isOk_bind ih fun _ _ => rfl
  case case10 hop ih =>
    rw [renderExpr, renderExpr, if_neg hop, if_neg hop]
    exact isOk_bind (isOk_renderBinary rfl ih) fun _ _ => rfl
  case case11 htarget =>
    rw [renderExpr, renderExpr] <;> assumption
  case case12 iht ihc ihf =>
    rw [renderExpr, renderExpr]
    exact isOk_bind iht fun _ _ => isOk_bind ihc fun _ _ => isOk_bind ihf fun _ _ => rfl
  case case13 ih ihargs =>
    rw [renderExpr, renderExpr]
    refine isOk_bind ih fun _ _ => ?_
    revert ihargs
    split
    · exact fun ihargs => isOk_bind ihargs fun _ _ => rfl
    · exact fun ihargs => isOk_bind ihargs fun _ _ => rfl
    · exact fun _ => rfl
  case case14 ihb ihi =>
    rw [renderExpr, renderExpr]
    exact isOk_bind ihb fun _ _ => isOk_bind ihi fun _ _ => rfl
  case case15 ihb ihf =>
    rw [renderExpr, renderExpr]
    exact isOk_bind ihb fun _ _ => isOk_bind ihf fun _ _ => rfl
  case case16 ih => exact ih
  case case17 ih => exact ih
  case case18 hone =>
    rw [renderExpr, renderExpr] <;> assumption
  case case19 hany ih =>
    rw [renderExpr, renderExpr, if_pos hany, if_pos hany]
    exact isOk_bind ih fun _ _ => rfl
  case case20 hany ih =>
    rw [renderExpr, renderExpr, if_neg hany, if_neg hany]
    exact isOk_bind ih fun _ _ => rfl
  case case21 ih => exact ih
  case case22 => rfl
  case case23 => rw [renderExpr, renderExpr] <;> assumption
  case case24 => rfl
  case case25 ihv ih =>
    rw [renderEntries, renderEntries]
    exact isOk_bind rfl fun _ _ => isOk_bind ihv fun _ _ => isOk_bind ih fun _ _ => rfl
  case case26 hindex ihv ih ihi =>
    rw [renderEntries, renderEntries]
    · exact isOk_bind ihi fun _ _ => isOk_bind ihv fun _ _ => isOk_bind ih fun _ _ => rfl
    all_goals assumption
  case case27 ihv ih =>
    rw [renderEntries, renderEntries]
    exact isOk_bind rfl fun _ _ => isOk_bind ihv fun _ _ => isOk_bind ih fun _ _ => rfl
  case case28 hplain ihe ih =>
    rw [renderEntries, renderEntries]
    · exact isOk_bind ihe fun _ _ => isOk_bind ih fun _ _ => rfl
    all_goals assumption
  case case29 => rfl
  case case30 ihe ih =>
    rw [renderExprs, renderExprs]
    exact isOk_bind ihe fun _ _ => isOk_bind ih fun _ _ => rfl

end StubGen.CUnit
