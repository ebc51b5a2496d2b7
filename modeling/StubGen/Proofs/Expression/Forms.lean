import Mathlib.Tactic.SplitIfs
import StubGen.Proofs.Jump.Tree

/-!
# Forms of texts

What is written for types and expressions has few forms, and what is known of the nodes is known of the names and
constants in them.

* `HintText` lists the forms of annotations, and `ExprText` those of expressions.
* `exprText_renderExpr` and `exprText_renderAssignment` follow the writers; a fact about the start or the end of a text
  is then a short induction on its form.
-/

namespace StubGen.CUnit

open Traced

variable {P : Node → Prop}

/-! ### Types -/

/-- The names of the host types. -/
def hostNames : List String := ["None", "bool", "str", "float", "int", "bytes", "Any"]

/-- The annotations of types. -/
inductive HintText (P : Node → Prop) : String → Prop
  | host {name : String} : name ∈ hostNames → HintText P name
  | name {name : String} : NameIn P name → HintText P name
  /-- A type without words. -/
  | nameless : P (.identifierType []) → HintText P ""
  | generic {start : String} (inner : String) : start ∈ ["List[", "Callable[[", "Callable[..., "] →
      HintText P (start ++ inner ++ "]")

private theorem hintText_any : HintText P (Hint.typing "Any").text := .host (by decide : "Any" ∈ hostNames)

private theorem hintText_scalarHint {words : List String} (h : P (.identifierType words)) :
    HintText P (scalarHint words).text := by
  dsimp only [scalarHint]
  split
  · rename_i host hhost
    refine .host ?_
    unfold HostType.ofScalar? at hhost
    split_ifs at hhost <;> cases hhost <;> decide
  · split
    · exact .host (by decide : "int" ∈ hostNames)
    · rename_i hlength
      match words with
      | [] => exact .nameless h
      | [word] => exact .name ⟨_, h, List.mem_singleton_self word⟩
      | first :: second :: others => exact absurd (by simp) hlength

private theorem hintText_elementsHint {element : Node} {hint : Hint} (h : HintText P hint.text) :
    HintText P (elementsHint element hint).text := by
  unfold elementsHint
  split
  · exact h
  · split
    · rename_i host hhost
      obtain ⟨spelling, -, hhost⟩ := Option.bind_eq_some_iff.mp hhost
      refine .host ?_
      unfold HostType.ofPointer? at hhost
      split_ifs at hhost <;> cases hhost <;> decide
    · exact .generic _ (by decide)

private theorem hintText_callable (params : List Hint) (result : Hint) :
    HintText P (Hint.callable params result).text := by
  have htext : (Hint.callable params result).text =
      "Callable[[" ++ (", ".intercalate (params.map Hint.text) ++ "], " ++ result.text) ++ "]" := by
    simp only [Hint.callable, String.append_assoc]
  rw [htext]
  exact .generic _ (by decide)

private theorem hintText_tag {node : Node} (h : P node) {name : Option String} (hname : name.toList = node.names)
    {other : Hint} (hother : HintText P other.text) : HintText P (name.elim other Hint.plain).text := by
  cases name with
  | none => exact hother
  | some tag => exact .name ⟨node, h, by rw [← hname]; exact List.mem_singleton_self tag⟩

/-- The form of the annotation of a type. -/
theorem hintText_typeHint {type : Node} (h : Everywhere P type) : HintText P (typeHint type).text := by
  revert h
  apply typeHint.induct (fun type => Everywhere P type → HintText P (typeHint type).text) (fun _ => True)
  case case1 => exact fun _ _ ih h => ih (h.parts _ (List.mem_cons_self ..))
  case case2 => exact fun _ _ ih h => ih (h.parts _ (List.mem_cons_self ..))
  case case3 => exact fun _ _ _ _ _ _ ih h => ih (h.parts _ (List.mem_cons_self ..))
  case case4 => exact fun _ h => hintText_scalarHint h.self
  case case5 => exact fun _ _ h => hintText_tag h.self rfl hintText_any
  case case6 => exact fun _ _ h => hintText_tag h.self rfl hintText_any
  case case7 =>
    intro name values h
    cases name with
    | none => exact .host (by decide : "int" ∈ hostNames)
    | some tag => exact .name ⟨_, h.self, List.mem_singleton_self tag⟩
  case case8 => exact fun _ ih h => hintText_elementsHint (ih (h.parts _ (List.mem_cons_self ..)))
  case case9 => exact fun _ _ ih h => hintText_elementsHint (ih (h.parts _ (List.mem_cons_self ..)))
  case case10 =>
    intro params result hvoid ih h
    rw [typeHint, if_pos hvoid]
    exact hintText_callable [] _
  case case11 =>
    intro params result hvoid hany ih h
    rw [typeHint, if_neg hvoid, if_pos hany]
    exact .generic _ (by decide)
  case case12 =>
    intro params result hvoid hany _ ih h
    rw [typeHint, if_neg hvoid, if_neg hany]
    exact hintText_callable _ _
  case case13 =>
    intro params result hparams ih h
    rw [typeHint]
    · exact hintText_callable [] _
    · exact hparams
  case case14 =>
    intros
    rw [typeHint]
    · exact hintText_any
    all_goals assumption
  case case15 => trivial
  case case16 => exact fun _ _ _ _ => trivial

/-! ### Expressions -/

/-- The texts of expressions. -/
inductive ExprText (P : Node → Prop) : String → Prop
  | literal {type value : String} : P (.constant type value) → ExprText P (literalText type value)
  | name {name : String} : NameIn P name → ExprText P (escapeName name)
  | hint {text : String} : HintText P text → ExprText P text
  | enclosed {first last : String} (inner : String) : first ∈ ["(", "[", "\x7b"] → last ∈ [")", "]", "\x7d"] →
      ExprText P (first ++ inner ++ last)
  /-- An operator that is written as a call. -/
  | word {op : String} {operand : Node} (inner : String) : P (.unary op operand) → op ∉ unaryOperators →
      ExprText P (op ++ inner ++ ")")
  | signed {mark text : String} : mark ∈ ["not ", "-", "+", "~"] → ExprText P text → ExprText P (mark ++ text)
  | trailed {first last : String} (inner : String) : ExprText P first → last ∈ [")", "]"] →
      ExprText P (first ++ inner ++ last)
  | joined {first mark last : String} (inner : String) : ExprText P first → mark ∈ [" ", ".", " else "] →
      ExprText P last → ExprText P (first ++ inner ++ mark ++ last)

private theorem ExprText.enclose {reduce : Bool} {parent child : Level} {side : Side} {text : String}
    (h : ExprText P text) : ExprText P (enclose reduce parent side child text) := by
  unfold CUnit.enclose
  split
  · exact .enclosed text (by decide) (by decide)
  · exact h

/-- An assignment expression. -/
private theorem exprText_named (name inner : String) :
    ExprText P ("(" ++ escapeName name ++ " := " ++ inner ++ ")") := by
  have henclosed : ExprText P ("(" ++ (escapeName name ++ " := " ++ inner) ++ ")") :=
    .enclosed _ (by decide) (by decide)
  rwa [← String.append_assoc, ← String.append_assoc] at henclosed

/-- An operator between two texts. -/
private theorem ExprText.operation {first last : String} (op : String) (hfirst : ExprText P first)
    (hlast : ExprText P last) : ExprText P (first ++ " " ++ op ++ " " ++ last) := by
  have hjoined := ExprText.joined (" " ++ op) hfirst (by decide : " " ∈ [" ", ".", " else "]) hlast
  rwa [← String.append_assoc] at hjoined

/-- Something in brackets behind a text. -/
private theorem ExprText.bracketed {first last : String} (mark inner : String) (hfirst : ExprText P first)
    (hlast : last ∈ [")", "]"]) : ExprText P (first ++ mark ++ inner ++ last) := by
  have htrailed := ExprText.trailed (mark ++ inner) hfirst hlast
  rwa [← String.append_assoc] at htrailed

private theorem ExprText.attribute {base field : String} (hbase : ExprText P base) (hfield : ExprText P field) :
    ExprText P (base ++ "." ++ field) := by
  have hjoined := ExprText.joined "" hbase (by decide : "." ∈ [" ", ".", " else "]) hfield
  rwa [String.append_empty] at hjoined

/-- A conditional expression. -/
private theorem ExprText.conditional {first last : String} (cond : String) (hfirst : ExprText P first)
    (hlast : ExprText P last) : ExprText P (first ++ " if " ++ cond ++ " else " ++ last) := by
  have hjoined := ExprText.joined (" if " ++ cond) hfirst (by decide : " else " ∈ [" ", ".", " else "]) hlast
  rwa [← String.append_assoc] at hjoined

/-- The form of the text of an expression. -/
theorem exprText_renderExpr {reduce : Bool} {expr : Node} {text : String} (h : Everywhere P expr)
    (hrender : (renderExpr reduce expr).result = .ok text) : ExprText P text := by
  revert h text
  apply renderExpr.induct reduce
    (fun expr => ∀ {text}, Everywhere P expr → (renderExpr reduce expr).result = .ok text → ExprText P text)
    (fun _ _ => True) (fun _ => True)
  case case1 =>
    intro type value text h hrender
    cases hrender
    exact .literal h.self
  case case2 =>
    intro name text h hrender
    cases hrender
    exact .name ⟨_, h.self, List.mem_singleton_self name⟩
  case case3 =>
    intro op left right ihleft ihright text h hrender
    obtain ⟨level, l, r, -, hl, hr, rfl⟩ := renderExpr_binary.mp hrender
    have hleft := ihleft (h.parts left (by simp [Node.parts])) hl
    have hright := ihright (h.parts right (by simp [Node.parts])) hr
    exact .operation (operatorText op) hleft.enclose hright.enclose
  case case4 =>
    intro operand ih text h hrender
    obtain ⟨inner, hinner, rfl⟩ := renderExpr_not.mp hrender
    exact .signed (by decide) (ih (h.parts operand (by simp [Node.parts])) hinner).enclose
  case case5 =>
    intro op operand _ hop ih text h hrender
    have hmem : op ∈ ["-", "+", "~"] := by simpa using hop
    obtain ⟨inner, hinner, rfl⟩ := (renderExpr_sign hmem).mp hrender
    exact .signed (List.mem_cons_of_mem _ hmem) (ih (h.parts operand (by simp [Node.parts])) hinner).enclose
  case case6 =>
    intro op operand _ _ hop ih text h hrender
    rw [renderExpr_address (by simpa using hop)] at hrender
    exact ih (h.parts operand (by simp [Node.parts])) hrender
  case case7 =>
    intro op operand hnot hsign haddress hstep _ text _ hrender
    rw [renderExpr, if_neg hnot, if_neg hsign, if_neg haddress, if_pos hstep] at hrender
    obtain ⟨_, -, hfail⟩ := bind_eq_ok.mp hrender
    cases hfail
  case case8 =>
    intro op operand hnot hsign haddress hstep _ text h hrender
    have hword : op ∉ unaryOperators := by
      simp only [Node.isStepOp, decide_eq_true_eq, not_or] at hsign haddress hstep
      simp [unaryOperators, hnot, hsign, haddress, hstep]
    obtain ⟨inner, -, rfl⟩ := (renderExpr_wordOperator hword).mp hrender
    have hcall := ExprText.word ("(" ++ inner) h.self hword
    rwa [← String.append_assoc] at hcall
  case case9 =>
    intro name value _ text _ hrender
    obtain ⟨inner, -, rfl⟩ := renderExpr_assign.mp hrender
    exact exprText_named name inner
  case case10 =>
    intro op name value _ _ text _ hrender
    obtain ⟨inner, -, rfl⟩ := renderExpr_assign.mp hrender
    exact exprText_named name inner
  case case11 =>
    intro op target value htarget text _ hrender
    rw [renderExpr] at hrender
    · cases hrender
    · exact htarget
  case case12 =>
    intro cond whenTrue whenFalse ihtrue _ ihfalse text h hrender
    obtain ⟨t, c, f, ht, -, hf, rfl⟩ := renderExpr_ternary.mp hrender
    have htrue := ihtrue (h.parts whenTrue (by simp [Node.parts])) ht
    have hfalse := ihfalse (h.parts whenFalse (by simp [Node.parts])) hf
    exact .conditional _ htrue.enclose hfalse.enclose
  case case13 =>
    intro callee args ih _ text h hrender
    obtain ⟨c, texts, hc, -, rfl⟩ := renderExpr_call.mp hrender
    exact .bracketed _ _ (ih (h.parts callee (by simp [Node.parts])) hc).enclose (by decide)
  case case14 =>
    intro base index ih _ text h hrender
    obtain ⟨b, i, hb, -, rfl⟩ := renderExpr_subscript.mp hrender
    exact .bracketed _ _ (ih (h.parts base (by simp [Node.parts])) hb).enclose (by decide)
  case case15 =>
    intro base access field ihbase ihfield text h hrender
    obtain ⟨b, f, hb, hf, rfl⟩ := renderExpr_member.mp hrender
    have hbase := ihbase (h.parts base (by simp [Node.parts])) hb
    have hfield := ihfield (h.parts field (by simp [Node.parts])) hf
    exact .attribute hbase.enclose hfield
  case case16 =>
    intro type operand ih text h hrender
    exact ih (h.parts operand (by simp [Node.parts])) hrender
  case case17 =>
    intro expr ih text h hrender
    exact ih (h.parts expr (by simp [Node.parts])) hrender
  case case18 =>
    intro exprs hmany text _ hrender
    rw [renderExpr] at hrender
    · cases hrender
    · exact hmany
  case case19 =>
    intro exprs hany _ text _ hrender
    rw [renderExpr, if_pos hany] at hrender
    obtain ⟨entries, -, htext⟩ := bind_eq_ok.mp hrender
    cases htext
    exact .enclosed _ (by decide) (by decide)
  case case20 =>
    intro exprs hany _ text _ hrender
    rw [renderExpr, if_neg hany] at hrender
    obtain ⟨texts, -, htext⟩ := bind_eq_ok.mp hrender
    cases htext
    exact .enclosed _ (by decide) (by decide)
  case case21 =>
    intro type init ih text h hrender
    exact ih (h.parts init (by simp [Node.parts])) hrender
  case case22 =>
    intro name type text h hrender
    cases hrender
    exact .hint (hintText_typeHint h)
  case case23 =>
    intros
    rename_i hrender
    rw [renderExpr] at hrender
    · cases hrender
    all_goals assumption
  all_goals intros
  all_goals trivial

/-- The form of the text of an assignment. -/
theorem exprText_renderAssignment {reduce : Bool} {op : String} {target value : Node} {text : String}
    (htarget : Everywhere P target) (hvalue : Everywhere P value)
    (hrender : (renderAssignment reduce op target value).result = .ok text) : ExprText P text := by
  induction op, target, value using renderAssignment.induct generalizing text with
  | case1 op target inner innerTarget value ih =>
    rw [renderAssignment, bind_eq_ok] at hrender
    obtain ⟨targetText, htext, hrender⟩ := hrender
    have hfirst := exprText_renderExpr htarget htext
    split at hrender
    · obtain ⟨valueText, hinner, hresult⟩ := bind_eq_ok.mp hrender
      cases hresult
      exact .operation op hfirst
        (ih (hvalue.parts innerTarget (by simp [Node.parts])) (hvalue.parts value (by simp [Node.parts])) hinner)
    · obtain ⟨valueText, hinner, hresult⟩ := bind_eq_ok.mp hrender
      cases hresult
      exact .operation op hfirst (exprText_renderExpr hvalue hinner)
  | case2 op target value hplain =>
    rw [renderAssignment] at hrender
    · simp only [bind_eq_ok, pure_result, Except.ok.injEq] at hrender
      obtain ⟨targetText, htext, valueText, hinner, rfl⟩ := hrender
      exact .operation op (exprText_renderExpr htarget htext) (exprText_renderExpr hvalue hinner)
    · exact hplain

end StubGen.CUnit
