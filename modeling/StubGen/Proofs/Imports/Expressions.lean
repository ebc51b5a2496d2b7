import Mathlib.Tactic.SplitIfs
import StubGen.Proofs.Expression.Rendering
import StubGen.Proofs.Imports.Words
import StubGen.Proofs.Jump.Tree

/-!
# Host symbols in expressions

The host symbols in the text of a C expression or type are used, or they come from the names and constants of its
nodes.

* `Node.texts` lists what the text takes from a node itself, and `Node.IsSupplied` says that the host symbols in it are
  used.
* `Traced.Supplies` says that what a piece yields is supplied by its uses.
* `supplies_typeHint`, `supplies_renderExpr` and `supplies_renderAssignment` follow the writers.
-/

namespace StubGen.CUnit

variable {runtimeModule : String} {Used : Import → Prop}

/-! ### What comes from the syntax -/

/-- The texts that the output takes from the node itself.  Words that name a scalar type are not written, and no more
are several words that name none. -/
def Node.texts : Node → List String
  | decl name .. | struct name _ | union name _ | enum name _ => name.toList
  | identifierType words =>
    if (HostType.ofScalar? (" ".intercalate words)).isSome || 1 < words.length then [] else words
  | typedef name _ | enumerator name _ | ident name => [name]
  | constant type value => [literalText type value]
  | unary op _ | assign op _ _ => [op]
  | gotoJump label | labelled label _ => [label]
  | pragma text => text.toList
  | _ => []

/-- The host symbols in the texts of the node are used. -/
def Node.IsSupplied (runtimeModule : String) (Used : Import → Prop) (node : Node) : Prop :=
  ∀ text ∈ node.texts, Supplied runtimeModule Used text

/-! ### Pieces -/

/-- If the symbols that the piece uses are used, then what it yields has the property. -/
def Traced.Supplies {α : Type} (Used : Import → Prop) (Yields : α → Prop) (piece : Traced α) : Prop :=
  (∀ symbol ∈ piece.uses, Used symbol) → ∀ value, piece.result = .ok value → Yields value

namespace Traced.Supplies

variable {α β : Type} {Yields : α → Prop} {Results : β → Prop}

protected theorem pure {value : α} (h : Yields value) : (pure value : Traced α).Supplies Used Yields := by
  intro _ other hother
  cases hother
  exact h

theorem fail (cause : GenerateError) : (Traced.fail cause : Traced α).Supplies Used Yields := by
  intro _ value hvalue
  cases hvalue

theorem bind {first : Traced α} {next : α → Traced β} (hfirst : first.Supplies Used Yields)
    (hnext : ∀ value, Yields value → (next value).Supplies Used Results) :
    (first >>= next).Supplies Used Results := by
  intro huses result hresult
  obtain ⟨value, hvalue, hrest⟩ := bind_eq_ok.mp hresult
  rw [bind_of_ok hvalue, List.forall_mem_append] at huses
  exact hnext value (hfirst huses.1 value hvalue) huses.2 result hrest

theorem map {first : Traced α} (hfirst : first.Supplies Used Yields) {f : α → β}
    (hf : ∀ value, Yields value → Results (f value)) :
    (do return f (← first) : Traced β).Supplies Used Results :=
  hfirst.bind fun value hvalue => .pure (hf value hvalue)

theorem mono {Others : α → Prop} {piece : Traced α} (h : piece.Supplies Used Yields)
    (hvalues : ∀ value, Yields value → Others value) : piece.Supplies Used Others :=
  fun huses value hvalue => hvalues value (h huses value hvalue)

/-- A piece that passes a check goes on. -/
theorem guard {γ : Type} {c : Prop} [Decidable c] {cause : GenerateError} {skipped : γ → Traced β} {next : Traced β}
    (h : next.Supplies Used Results) :
    (if c then Traced.fail cause >>= skipped else next).Supplies Used Results := by
  have hfail : (Traced.fail cause : Traced γ).Supplies Used fun _ => False := fail cause
  split
  · exact hfail.bind fun _ hfalse => hfalse.elim
  · exact h

/-- A piece of which nothing is known. -/
theorem trivial (piece : Traced α) : piece.Supplies Used fun _ => True := fun _ _ _ => True.intro

theorem use (symbol : Import) : (Traced.use symbol).Supplies Used fun _ => Used symbol :=
  fun huses _ _ => huses symbol (List.mem_singleton_self symbol)

theorem mapM {f : α → Traced β} {items : List α} (h : ∀ item ∈ items, (f item).Supplies Used Results) :
    (items.mapM f).Supplies Used fun results => ∀ result ∈ results, Results result := by
  induction items with
  | nil => exact .pure (List.forall_mem_nil _)
  | cons item rest ih =>
    obtain ⟨hitem, hrest⟩ := List.forall_mem_cons.mp h
    rw [List.mapM_cons]
    exact hitem.bind fun result hresult => (ih hrest).map fun results hresults =>
      List.forall_mem_cons.mpr ⟨hresult, hresults⟩

end Traced.Supplies

/-! ### Names and constants -/

theorem supplied_escapeName {name : String} (h : Supplied runtimeModule Used name) :
    Supplied runtimeModule Used (escapeName name) := by
  have hreserved : ∀ word ∈ reservedWords, isPlain (word ++ "_") = true := by decide
  unfold escapeName
  split
  · next hmem => exact supplied_of_isPlain (hreserved name hmem)
  · exact h

theorem supplied_enclose {reduce : Bool} {parent child : Level} {side : Side} {text : String}
    (h : Supplied runtimeModule Used text) : Supplied runtimeModule Used (enclose reduce parent side child text) := by
  unfold enclose
  split
  · simp +decide [h]
  · exact h

theorem isPlain_operatorText {op : String} {level : Level} (h : binaryLevel? op = some level) :
    isPlain (operatorText op) = true := by
  have hplain : ∀ op ∈ ["||", "&&", "<", ">", "<=", ">=", "==", "!=", "|", "^", "&", "<<", ">>", "+", "-", "*", "/",
      "%"], isPlain (operatorText op) = true := by decide
  refine hplain op ?_
  by_contra hno
  simp only [List.mem_cons, List.not_mem_nil, or_false, not_or] at hno
  simp [binaryLevel?, hno] at h

private theorem mem_literalText {type value : String} {c : Char} (h : c ∈ (literalText type value).toList) :
    c ∈ value.toList ∨ c = 'o' := by
  have hoctal : ∀ chars, c ∈ markOctal chars → c ∈ chars ∨ c = 'o' := by
    intro chars hmem
    unfold markOctal at hmem
    split at hmem
    · split at hmem
      · simp only [List.mem_cons] at hmem ⊢
        rcases hmem with hzero | hmark | hrest
        · exact Or.inl (Or.inl hzero)
        · exact Or.inr hmark
        · exact Or.inl (Or.inr hrest)
      · exact Or.inl hmem
    · exact Or.inl hmem
  have hfloat : ∀ chars, c ∈ dropFloatSuffix type chars → c ∈ chars := by
    intro chars hmem
    unfold dropFloatSuffix at hmem
    split at hmem
    · exact List.dropLast_subset _ hmem
    · exact hmem
  have hint : ∀ chars, c ∈ dropIntSuffix chars → c ∈ chars := by
    intro chars hmem
    dsimp only [dropIntSuffix] at hmem
    split at hmem
    · exact (List.takeWhile_sublist _).mem hmem
    · exact hmem
  rw [literalText, String.toList_ofList] at h
  exact (hoctal _ h).imp_left fun hmem => hint _ (hfloat _ hmem)

theorem isSupplied_number (value : Int) :
    (Node.constant "int" (toString value)).IsSupplied runtimeModule Used := by
  refine List.forall_mem_singleton.mpr (supplied_of_isNumeral fun c hc => ?_)
  rcases mem_literalText hc with hdigit | rfl
  · exact isNumeral_toString value c hdigit
  · decide

/-! ### Types -/

/-- If the symbols of the annotation are used, then so are the host symbols in its text. -/
def Hint.Supplies (runtimeModule : String) (Used : Import → Prop) (hint : Hint) : Prop :=
  (∀ symbol ∈ hint.uses, Used symbol) → Supplied runtimeModule Used hint.text

private theorem supplies_plain {text : String} (h : Supplied runtimeModule Used text) :
    (Hint.plain text).Supplies runtimeModule Used := fun _ => h

private theorem typing_mem_importable {symbol : String} (h : symbol ∈ DeclFile.typingSymbols) :
    ⟨"typing", symbol⟩ ∈ importable runtimeModule :=
  List.mem_append_left _ (List.mem_append_left _ (List.mem_append_left _ (List.mem_map_of_mem h)))

private theorem supplies_typing {symbol : String} (h : symbol ∈ DeclFile.typingSymbols) :
    (Hint.typing symbol).Supplies runtimeModule Used := fun huses =>
  supplied_symbol _ (typing_mem_importable h) (huses ⟨"typing", symbol⟩ (List.mem_singleton_self _))

private theorem supplies_any : (Hint.typing "Any").Supplies runtimeModule Used := supplies_typing (by decide)

private theorem supplied_generic {symbol : String} (h : symbol ∈ DeclFile.typingSymbols)
    (huses : ∀ use ∈ (Hint.typing symbol).uses, Used use) {text : String} (hstart : startsApart text = true)
    (hplain : isPlain text = true) : Supplied runtimeModule Used (symbol ++ text) :=
  supplied_symbol_append _ (typing_mem_importable h) (huses ⟨"typing", symbol⟩ (List.mem_singleton_self _))
    hstart hplain

private theorem supplies_list {hint : Hint} (h : hint.Supplies runtimeModule Used) :
    hint.list.Supplies runtimeModule Used := by
  intro huses
  obtain ⟨helement, hlist⟩ := List.forall_mem_append.mp huses
  have htyping : "List" ∈ DeclFile.typingSymbols := by decide
  have hopening : Supplied runtimeModule Used "List[" :=
    supplied_generic htyping hlist (by decide : startsApart "[" = true) (by decide)
  simp +decide [Hint.list, hopening, h helement]

private theorem supplies_anyCallable {result : Hint} (h : result.Supplies runtimeModule Used) :
    (Hint.anyCallable result).Supplies runtimeModule Used := by
  intro huses
  obtain ⟨hresult, hcallable⟩ := List.forall_mem_append.mp huses
  have hopening : Supplied runtimeModule Used "Callable[..., " :=
    supplied_generic (by decide : "Callable" ∈ DeclFile.typingSymbols) hcallable
      (by decide : startsApart "[..., " = true) (by decide)
  simp +decide [Hint.anyCallable, hopening, h hresult]

private theorem supplies_callable {params : List Hint} {result : Hint}
    (hparams : ∀ param ∈ params, param.Supplies runtimeModule Used) (h : result.Supplies runtimeModule Used) :
    (Hint.callable params result).Supplies runtimeModule Used := by
  intro huses
  obtain ⟨hothers, hlisted⟩ := List.forall_mem_append.mp huses
  obtain ⟨hresult, hcallable⟩ := List.forall_mem_append.mp hothers
  have hopening : Supplied runtimeModule Used "Callable[[" :=
    supplied_generic (by decide : "Callable" ∈ DeclFile.typingSymbols) hcallable
      (by decide : startsApart "[[" = true) (by decide)
  have hitems : Supplied runtimeModule Used (", ".intercalate (params.map Hint.text)) := by
    refine supplied_commas fun text htext => ?_
    obtain ⟨param, hparam, rfl⟩ := List.mem_map.mp htext
    exact hparams param hparam fun symbol hsymbol => hlisted symbol (List.mem_flatMap.mpr ⟨param, hparam, hsymbol⟩)
  simp +decide [Hint.callable, hopening, hitems, h hresult]

private theorem supplies_scalarHint {words : List String}
    (h : (Node.identifierType words).IsSupplied runtimeModule Used) :
    (scalarHint words).Supplies runtimeModule Used := by
  rw [Node.IsSupplied, Node.texts] at h
  dsimp only [scalarHint]
  split
  · next host hhost =>
    unfold HostType.ofScalar? at hhost
    split_ifs at hhost <;> cases hhost <;> exact supplies_plain (supplied_of_isPlain (by decide))
  · next hnone =>
    split
    · exact supplies_plain (supplied_of_isPlain (by decide))
    · next hlength =>
      rw [hnone, Option.isSome_none, Bool.false_or, if_neg (by simpa using hlength)] at h
      match words with
      | [] => exact supplies_plain (supplied_of_isPlain (by decide))
      | [word] => exact supplies_plain (by simpa using h)
      | first :: second :: others => exact absurd (by simp) hlength

private theorem supplies_elementsHint (element : Node) {hint : Hint} (h : hint.Supplies runtimeModule Used) :
    (elementsHint element hint).Supplies runtimeModule Used := by
  unfold elementsHint
  split
  · exact h
  · split
    · next host hhost =>
      obtain ⟨spelling, -, hhost⟩ := Option.bind_eq_some_iff.mp hhost
      unfold HostType.ofPointer? at hhost
      split_ifs at hhost <;> cases hhost
      · exact supplies_plain (supplied_of_isPlain (by decide))
      · exact supplies_plain (supplied_of_isPlain (by decide))
      · exact supplies_any
    · exact supplies_list h

private theorem supplies_tag {name : Option String} {other : Hint}
    (h : ∀ text ∈ name.toList, Supplied runtimeModule Used text) (hother : other.Supplies runtimeModule Used) :
    (name.elim other Hint.plain).Supplies runtimeModule Used := by
  cases name with
  | none => exact hother
  | some tag => exact supplies_plain (h tag (List.mem_singleton_self tag))

/-- The host symbols in the annotation of a type are used, or they come from the type. -/
theorem supplies_typeHint {type : Node} (h : Everywhere (Node.IsSupplied runtimeModule Used) type) :
    (typeHint type).Supplies runtimeModule Used := by
  revert h
  apply typeHint.induct
    (fun type => Everywhere (Node.IsSupplied runtimeModule Used) type → (typeHint type).Supplies runtimeModule Used)
    (fun types => (∀ type ∈ types, Everywhere (Node.IsSupplied runtimeModule Used) type) →
      ∀ hint ∈ typeHints types, hint.Supplies runtimeModule Used)
  case case1 => exact fun _ _ ih h => ih (h.parts _ (List.mem_cons_self ..))
  case case2 => exact fun _ _ ih h => ih (h.parts _ (List.mem_cons_self ..))
  case case3 => exact fun _ _ _ _ _ _ ih h => ih (h.parts _ (List.mem_cons_self ..))
  case case4 => exact fun _ h => supplies_scalarHint h.self
  case case5 => exact fun _ _ h => supplies_tag h.self supplies_any
  case case6 => exact fun _ _ h => supplies_tag h.self supplies_any
  case case7 =>
    intro name values h
    cases name with
    | none => exact supplies_plain (supplied_of_isPlain (by decide : isPlain "int" = true))
    | some tag => exact supplies_plain (h.self tag (List.mem_singleton_self tag))
  case case8 => exact fun _ ih h => supplies_elementsHint _ (ih (h.parts _ (List.mem_cons_self ..)))
  case case9 => exact fun _ _ ih h => supplies_elementsHint _ (ih (h.parts _ (List.mem_cons_self ..)))
  case case10 =>
    intro params result hvoid ih h
    rw [typeHint, if_pos hvoid]
    exact supplies_callable (List.forall_mem_nil _) (ih (h.parts _ (List.mem_cons_self ..)))
  case case11 =>
    intro params result hvoid hany ih h
    rw [typeHint, if_neg hvoid, if_pos hany]
    exact supplies_anyCallable (ih (h.parts _ (List.mem_cons_self ..)))
  case case12 =>
    intro params result hvoid hany ihparams ih h
    rw [typeHint, if_neg hvoid, if_neg hany]
    have hlist := h.parts (.paramList params) (by simp [Node.parts])
    exact supplies_callable (ihparams hlist.parts) (ih (h.parts _ (List.mem_cons_self ..)))
  case case13 =>
    intro params result hparams ih h
    rw [typeHint]
    · exact supplies_callable (List.forall_mem_nil _) (ih (h.parts _ (List.mem_cons_self ..)))
    · exact hparams
  case case14 =>
    intros
    rw [typeHint]
    · exact supplies_any
    all_goals assumption
  case case15 => exact fun _ => List.forall_mem_nil _
  case case16 =>
    intro type rest ih ihrest h
    obtain ⟨htype, hrest⟩ := List.forall_mem_cons.mp h
    exact List.forall_mem_cons.mpr ⟨ih htype, ihrest hrest⟩

/-! ### Expressions -/

theorem supplies_toTraced {hint : Hint} (h : hint.Supplies runtimeModule Used) :
    hint.toTraced.Supplies Used (Supplied runtimeModule Used) := by
  intro huses text htext
  cases htext
  exact h huses

private theorem supplied_operation {first op last : String} (hfirst : Supplied runtimeModule Used first)
    (hop : Supplied runtimeModule Used op) (hlast : Supplied runtimeModule Used last) :
    Supplied runtimeModule Used (first ++ " " ++ op ++ " " ++ last) := by
  simp +decide [hfirst, hop, hlast]

private theorem supplies_renderBinary (reduce : Bool) (op : String) {left right : Operand}
    (hleft : left.text.Supplies Used (Supplied runtimeModule Used))
    (hright : right.text.Supplies Used (Supplied runtimeModule Used)) :
    (renderBinary reduce op left right).Supplies Used (Supplied runtimeModule Used) := by
  unfold renderBinary
  split
  · exact .fail _
  · next level hlevel =>
    have hop : Supplied runtimeModule Used (operatorText op) := supplied_of_isPlain (isPlain_operatorText hlevel)
    exact hleft.bind fun first hfirst => hright.map fun last hlast =>
      supplied_operation (supplied_enclose hfirst) hop (supplied_enclose hlast)

/-- The host symbols in the text of an expression are used, or they come from the expression. -/
theorem supplies_renderExpr (reduce : Bool) {expr : Node} (h : Everywhere (Node.IsSupplied runtimeModule Used) expr) :
    (renderExpr reduce expr).Supplies Used (Supplied runtimeModule Used) := by
  revert h
  apply renderExpr.induct reduce
    (fun expr => Everywhere (Node.IsSupplied runtimeModule Used) expr →
      (renderExpr reduce expr).Supplies Used (Supplied runtimeModule Used))
    (fun position exprs => (∀ expr ∈ exprs, Everywhere (Node.IsSupplied runtimeModule Used) expr) →
      (renderEntries reduce position exprs).Supplies Used fun texts => ∀ text ∈ texts, Supplied runtimeModule Used text)
    (fun exprs => (∀ expr ∈ exprs, Everywhere (Node.IsSupplied runtimeModule Used) expr) →
      (renderExprs reduce exprs).Supplies Used fun texts => ∀ text ∈ texts, Supplied runtimeModule Used text)
  case case1 => exact fun type value h => .pure (h.self _ (List.mem_singleton_self _))
  case case2 => exact fun name h => .pure (supplied_escapeName (h.self name (List.mem_singleton_self name)))
  case case3 =>
    intro op left right ihleft ihright h
    exact supplies_renderBinary reduce op (ihleft (h.parts left (by simp [Node.parts])))
      (ihright (h.parts right (by simp [Node.parts])))
  case case4 =>
    intro operand ih h
    exact (ih (h.parts operand (by simp [Node.parts]))).map fun text htext => by
      simp +decide [supplied_enclose, htext]
  case case5 =>
    intro op operand hnot hsign ih h
    rw [renderExpr, if_neg hnot, if_pos hsign]
    refine (ih (h.parts operand (by simp [Node.parts]))).map fun text htext => ?_
    rcases hsign with rfl | rfl | rfl <;> simp +decide [supplied_enclose, htext]
  case case6 =>
    intro op operand hnot hsign haddress ih h
    rw [renderExpr, if_neg hnot, if_neg hsign, if_pos haddress]
    exact ih (h.parts operand (by simp [Node.parts]))
  case case7 =>
    intro op operand hnot hsign haddress hstep _ h
    rw [renderExpr, if_neg hnot, if_neg hsign, if_neg haddress, if_pos hstep]
    exact (Traced.Supplies.trivial _).bind fun _ _ => .fail _
  case case8 =>
    intro op operand hnot hsign haddress hstep ih h
    have hop : Supplied runtimeModule Used op := h.self op (List.mem_singleton_self op)
    rw [renderExpr, if_neg hnot, if_neg hsign, if_neg haddress, if_neg hstep]
    exact (ih (h.parts operand (by simp [Node.parts]))).map fun text htext => by simp +decide [hop, htext]
  case case9 =>
    intro name value ih h
    have hname := (h.parts (.ident name) (by simp [Node.parts])).self name (List.mem_singleton_self name)
    rw [renderExpr, if_pos rfl]
    exact (ih (h.parts value (by simp [Node.parts]))).map fun text htext => by
      simp +decide [supplied_escapeName hname, htext]
  case case10 =>
    intro op name value hop ih h
    have hname := (h.parts (.ident name) (by simp [Node.parts])).self name (List.mem_singleton_self name)
    have htarget := supplied_escapeName hname
    rw [renderExpr, if_neg hop]
    exact (supplies_renderBinary reduce _ (.pure htarget) (ih (h.parts value (by simp [Node.parts])))).map
      fun text htext => by simp +decide [htarget, htext]
  case case11 =>
    intro op target value htarget h
    rw [renderExpr]
    · exact .fail _
    · exact htarget
  case case12 =>
    intro cond whenTrue whenFalse ihtrue ihcond ihfalse h
    refine (ihtrue (h.parts whenTrue (by simp [Node.parts]))).bind fun trueText htrue =>
      (ihcond (h.parts cond (by simp [Node.parts]))).bind fun condText hcond =>
        (ihfalse (h.parts whenFalse (by simp [Node.parts]))).map fun falseText hfalse => ?_
    simp +decide [supplied_enclose, htrue, hcond, hfalse]
  case case13 =>
    intro callee args ihcallee ihargs h
    have hargs : (renderExprs reduce (argsOf args)).Supplies Used
        fun texts => ∀ text ∈ texts, Supplied runtimeModule Used text := by
      unfold argsOf
      split
      · exact .pure (List.forall_mem_nil _)
      · next exprs => exact ihargs (h.parts (.exprList exprs) (by simp [Node.parts])).parts
      · next arg hsingle =>
        have harg := h.parts arg (by simp [Node.parts])
        split at ihargs
        · next exprs heq => exact (hsingle exprs (Option.some.inj heq)).elim
        · next other _ heq =>
          rw [← Option.some.inj heq] at ihargs
          rw [renderExprs, renderExprs]
          exact (ihargs harg).map fun text htext => by simpa using htext
        · next heq => cases heq
    rw [renderExpr_call_eq]
    exact (ihcallee (h.parts callee (by simp [Node.parts]))).bind fun text htext =>
      hargs.map fun texts htexts => by simp +decide [supplied_enclose, htext, supplied_commas htexts]
  case case14 =>
    intro base index ihbase ihindex h
    exact (ihbase (h.parts base (by simp [Node.parts]))).bind fun text htext =>
      (ihindex (h.parts index (by simp [Node.parts]))).map fun place hplace => by
        simp +decide [supplied_enclose, htext, hplace]
  case case15 =>
    intro base access field ihbase ihfield h
    exact (ihbase (h.parts base (by simp [Node.parts]))).bind fun text htext =>
      (ihfield (h.parts field (by simp [Node.parts]))).map fun name hname => by
        simp +decide [supplied_enclose, htext, hname]
  case case16 => exact fun type operand ih h => ih (h.parts operand (by simp [Node.parts]))
  case case17 => exact fun expr ih h => ih (h.parts expr (by simp [Node.parts]))
  case case18 =>
    intro exprs hmany h
    rw [renderExpr]
    · exact .fail _
    · exact hmany
  case case19 =>
    intro exprs hany ih h
    rw [renderExpr, if_pos hany]
    exact (ih h.parts).map fun texts htexts => by simp +decide [supplied_commas htexts]
  case case20 =>
    intro exprs hany ih h
    rw [renderExpr, if_neg hany]
    exact (ih h.parts).map fun texts htexts => by simp +decide [supplied_commas htexts]
  case case21 => exact fun type init ih h => ih (h.parts init (by simp [Node.parts]))
  case case22 => exact fun name type h => supplies_toTraced (supplies_typeHint h)
  case case23 =>
    intros
    rw [renderExpr]
    · exact .fail _
    all_goals assumption
  case case24 => exact fun _ _ => .pure (List.forall_mem_nil _)
  case case25 =>
    intro position value rest name path ih ihrest h
    obtain ⟨hentry, hrest⟩ := List.forall_mem_cons.mp h
    have hname := (hentry.parts (.ident name) (by simp [Node.parts])).self name (List.mem_singleton_self name)
    exact (ih (hentry.parts value (by simp [Node.parts]))).bind fun text htext =>
      (ihrest hrest).map fun texts htexts => List.forall_mem_cons.mpr ⟨by simp +decide [hname, htext], htexts⟩
  case case26 =>
    intro position value rest index path hindex ih ihrest ihindex h
    obtain ⟨hentry, hrest⟩ := List.forall_mem_cons.mp h
    rw [renderEntries]
    · exact (ihindex (hentry.parts index (by simp [Node.parts]))).bind fun key hkey =>
        (ih (hentry.parts value (by simp [Node.parts]))).bind fun text htext =>
          (ihrest hrest).map fun texts htexts => List.forall_mem_cons.mpr ⟨by simp +decide [hkey, htext], htexts⟩
    · exact hindex
  case case27 =>
    intro position value rest ih ihrest h
    obtain ⟨hentry, hrest⟩ := List.forall_mem_cons.mp h
    have hkey : Supplied runtimeModule Used position.repr := supplied_of_isNumeral (isNumeral_repr position)
    exact (ih (hentry.parts value (by simp [Node.parts]))).bind fun text htext =>
      (ihrest hrest).map fun texts htexts => List.forall_mem_cons.mpr ⟨by simp +decide [hkey, htext], htexts⟩
  case case28 =>
    intro position expr rest hplain ih ihrest h
    obtain ⟨hentry, hrest⟩ := List.forall_mem_cons.mp h
    have hkey : Supplied runtimeModule Used position.repr := supplied_of_isNumeral (isNumeral_repr position)
    rw [renderEntries]
    · exact (ih hentry).bind fun text htext =>
        (ihrest hrest).map fun texts htexts => List.forall_mem_cons.mpr ⟨by simp +decide [hkey, htext], htexts⟩
    · exact hplain
  case case29 => exact fun _ => .pure (List.forall_mem_nil _)
  case case30 =>
    intro expr rest ih ihrest h
    obtain ⟨hexpr, hrest⟩ := List.forall_mem_cons.mp h
    exact (ih hexpr).bind fun text htext => (ihrest hrest).map fun texts htexts =>
      List.forall_mem_cons.mpr ⟨htext, htexts⟩

/-- The host symbols in the text of an assignment are used, or they come from its parts. -/
theorem supplies_renderAssignment (reduce : Bool) {op : String} {target value : Node}
    (hop : Supplied runtimeModule Used op) (htarget : Everywhere (Node.IsSupplied runtimeModule Used) target)
    (hvalue : Everywhere (Node.IsSupplied runtimeModule Used) value) :
    (renderAssignment reduce op target value).Supplies Used (Supplied runtimeModule Used) := by
  induction op, target, value using renderAssignment.induct with
  | case1 op target inner innerTarget value ih =>
    have hinner : Supplied runtimeModule Used inner := hvalue.self inner (List.mem_singleton_self inner)
    have hinnerTarget := hvalue.parts innerTarget (by simp [Node.parts])
    have hlast := ih hinner hinnerTarget (hvalue.parts value (by simp [Node.parts]))
    rw [renderAssignment]
    refine (supplies_renderExpr reduce htarget).bind fun first hfirst => ?_
    dsimp only
    split
    · exact hlast.map fun last hlast => supplied_operation hfirst hop hlast
    · exact (supplies_renderExpr reduce hvalue).map fun last hlast => supplied_operation hfirst hop hlast
  | case2 op target value hchain =>
    rw [renderAssignment]
    · exact (supplies_renderExpr reduce htarget).bind fun first hfirst =>
        (supplies_renderExpr reduce hvalue).map fun last hlast => supplied_operation hfirst hop hlast
    · exact hchain

end StubGen.CUnit
