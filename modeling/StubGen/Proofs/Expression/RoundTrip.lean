import StubGen.Proofs.Expression.Literal
import StubGen.Proofs.Host.Reading

/-!
# Reading back expressions

The text that `renderExpr` gives for an expression over tokens is read as the host expression for which the
expression stands, whatever parentheses are left out.

* `Spells level text expr` says that a text is read as `expr` wherever an operand of this level may stand.
* `spells_enclose` gives the level after `enclose`; each form of expression keeps `Spells` (`spells_binary`, …).
* `isOk_renderExpr` says that the choice of parentheses does not decide what is accepted.
-/

namespace StubGen.CUnit

open Host

/-- The tokens are an expression of this level. -/
def ReadsLevel : Level → List Token → HostExpr → Prop
  | .ternary, tokens, expr => ReadsWhole tokens expr
  | level, tokens, expr => ReadsAt (level.rank - 1) tokens expr

/-- The text is read as `expr` wherever an operand of this level may stand.  A point may follow an atom, except for
a number. -/
def Spells (level : Level) (text : String) (expr : HostExpr) : Prop :=
  ∃ tokens, Lexes (level = .atom && !isNumeric expr) text.toList tokens ∧ ReadsLevel level tokens expr

theorem readsLevel_iff {level : Level} (h : level ≠ .ternary) {tokens : List Token} {expr : HostExpr} :
    ReadsLevel level tokens expr ↔ ReadsAt (level.rank - 1) tokens expr := by
  cases level <;> first | exact absurd rfl h | rfl

private theorem Lexes.of_true {dot : Bool} {text : List Char} {tokens : List Token} (h : Lexes true text tokens) :
    Lexes dot text tokens := by
  cases dot with
  | true => exact h
  | false => exact h.weaken

private theorem Lexes.to_false {dot : Bool} {text : List Char} {tokens : List Token} (h : Lexes dot text tokens) :
    Lexes false text tokens := by
  cases dot with
  | true => exact h.weaken
  | false => exact h

private theorem rank_le (level : Level) : level.rank - 1 ≤ operatorRules.length := by
  cases level <;> decide

variable {level : Level} {text : String} {expr : HostExpr}

theorem Spells.whole (h : Spells level text expr) :
    ∃ tokens, Lexes false text.toList tokens ∧ ReadsWhole tokens expr := by
  obtain ⟨tokens, hlex, hread⟩ := h
  refine ⟨tokens, hlex.to_false, ?_⟩
  by_cases hlevel : level = .ternary
  · rw [hlevel] at hread
    exact hread
  · exact ((readsLevel_iff hlevel).mp hread).whole (rank_le level)

theorem Spells.readsAt (h : Spells level text expr) {n : Nat} (hn : n < level.rank) :
    ∃ tokens, Lexes false text.toList tokens ∧ ReadsAt n tokens expr := by
  obtain ⟨tokens, hlex, hread⟩ := h
  have hlevel : level ≠ .ternary := by
    rintro rfl
    exact absurd hn (Nat.not_lt_zero n)
  exact ⟨tokens, hlex.to_false, ((readsLevel_iff hlevel).mp hread).mono (by omega) (rank_le level)⟩

/-- What is in brackets is an atom. -/
private theorem spells_atom {tokens : List Token} (hlex : Lexes true text.toList tokens)
    (hread : ReadsAt atomRow tokens expr) : Spells .atom text expr :=
  ⟨tokens, hlex.of_true, hread⟩

theorem Spells.parens (h : Spells level text expr) : Spells .atom ("(" ++ text ++ ")") expr := by
  obtain ⟨tokens, hlex, hread⟩ := h.whole
  refine spells_atom ?_ hread.parens
  simpa using hlex.enclosed '(' ')' (by decide) (by decide)

/-- An operand that `enclose` leaves has a level that needs no parentheses. -/
theorem spells_enclose (h : Spells level text expr) (reduce : Bool) (parent : Level) (side : Side) :
    ∃ outer, Spells outer (enclose reduce parent side level text) expr ∧
      needsParens reduce parent side outer = false := by
  cases hparens : needsParens reduce parent side level with
  | true =>
    refine ⟨.atom, ?_, needsParens_atom ..⟩
    simpa [enclose, hparens] using h.parens
  | false =>
    refine ⟨level, ?_, hparens⟩
    simpa [enclose, hparens] using h

/-! ### Operands -/

private theorem rank_of_left {reduce : Bool} {parent child : Level}
    (h : needsParens reduce parent .left child = false) :
    parent.rank ≤ child.rank ∧ (parent = .compare → child ≠ .compare) := by
  cases reduce <;> cases parent <;> cases child <;> revert h <;> decide

private theorem rank_of_right {reduce : Bool} {parent child : Level} (hparent : parent ≠ .atom)
    (h : needsParens reduce parent .right child = false) : parent.rank < child.rank := by
  cases reduce <;> cases parent <;> cases child <;> revert hparent h <;> decide

private theorem spells_left (reduce : Bool) (parent : Level) (h : Spells level text expr)
    (hparent : parent ≠ .ternary) :
    ∃ tokens, Lexes false (enclose reduce parent .left level text).toList tokens ∧
      ReadsAt (parent.rank - 1) tokens expr := by
  obtain ⟨outer, houter, hparens⟩ := spells_enclose h reduce parent .left
  have hrank := (rank_of_left hparens).1
  have hpos : parent.rank ≠ 0 := fun hzero => hparent (Level.rank_injective hzero)
  exact houter.readsAt (by omega)

/-- Neither operand of a comparison is a comparison. -/
private theorem spells_left_compare (reduce : Bool) (h : Spells level text expr) :
    ∃ tokens, Lexes false (enclose reduce .compare .left level text).toList tokens ∧
      ReadsAt Level.compare.rank tokens expr := by
  obtain ⟨outer, houter, hparens⟩ := spells_enclose h reduce .compare .left
  obtain ⟨hrank, hne⟩ := rank_of_left hparens
  have : outer.rank ≠ Level.compare.rank := fun heq => hne rfl (Level.rank_injective heq)
  exact houter.readsAt (by omega)

private theorem spells_right (reduce : Bool) (parent : Level) (h : Spells level text expr) (hparent : parent ≠ .atom) :
    ∃ tokens, Lexes false (enclose reduce parent .right level text).toList tokens ∧
      ReadsAt parent.rank tokens expr := by
  obtain ⟨outer, houter, hparens⟩ := spells_enclose h reduce parent .right
  exact houter.readsAt (rank_of_right hparent hparens)

/-! ### Operators -/

/-- The row of a binary operator and the form of its application. -/
theorem binaryLevel_cases {op : String} (h : binaryLevel? op = some level) :
    operatorText op ∈ spacedMarks ∧ level ≠ .ternary ∧ level ≠ .atom ∧ (
      (∃ ops, operatorRules[level.rank - 1]? = some (.grouped ops) ∧ operatorText op ∈ ops ∧
        ∀ left right, applyBinary op left right = .binary (operatorText op) left right) ∨
      (level = .compare ∧ ∃ ops, operatorRules[level.rank - 1]? = some (.chained ops) ∧ operatorText op ∈ ops ∧
        ∀ left right, applyBinary op left right = .compare left [operatorText op] [right])) := by
  have hop : op ∈ ["||", "&&", "<", ">", "<=", ">=", "==", "!=", "|", "^", "&", "<<", ">>", "+", "-", "*", "/",
      "%"] := by
    by_contra hno
    simp only [List.mem_cons, List.not_mem_nil, or_false, not_or] at hno
    simp [binaryLevel?, hno] at h
  simp only [List.mem_cons, List.not_mem_nil, or_false] at hop
  rcases hop with rfl | rfl | rfl | rfl | rfl | rfl | rfl | rfl | rfl | rfl | rfl | rfl | rfl | rfl | rfl | rfl | rfl |
    rfl <;>
    cases h <;> refine ⟨by decide, by decide, by decide, ?_⟩ <;>
    first
      | exact Or.inl ⟨_, rfl, by decide, fun _ _ => rfl⟩
      | exact Or.inr ⟨rfl, _, rfl, by decide, fun _ _ => rfl⟩

/-- The text of an operation stands for the application of its operator. -/
theorem spells_binary (reduce : Bool) {op l r : String} {a b : Level} {left right : HostExpr}
    (hop : binaryLevel? op = some level) (hl : Spells a l left) (hr : Spells b r right) :
    Spells level (enclose reduce level .left a l ++ " " ++ operatorText op ++ " " ++ enclose reduce level .right b r)
      (applyBinary op left right) := by
  obtain ⟨hmark, hternary, hatom, hrow⟩ := binaryLevel_cases hop
  obtain ⟨rtokens, hrlex, hrread⟩ := spells_right reduce level hr hatom
  have hpos : level.rank - 1 + 1 = level.rank := by
    have : level.rank ≠ 0 := fun hzero => hternary (Level.rank_injective hzero)
    omega
  have hrread' : ReadsAt (level.rank - 1 + 1) rtokens right := by rwa [hpos]
  rcases hrow with ⟨ops, hrow, hmem, happly⟩ | ⟨rfl, ops, hrow, hmem, happly⟩
  -- operators that group to the left, then comparisons
  · obtain ⟨ltokens, hllex, hlread⟩ := spells_left reduce level hl hternary
    refine ⟨ltokens ++ .mark (operatorText op) :: rtokens, ?_, ?_⟩
    · simpa [hatom] using hllex.spaced _ hmark hrlex
    · rw [happly]
      exact (readsLevel_iff hternary).mpr (hlread.binary hrow hmem hrread')
  · obtain ⟨ltokens, hllex, hlread⟩ := spells_left_compare reduce hl
    refine ⟨ltokens ++ .mark (operatorText op) :: rtokens, ?_, ?_⟩
    · simpa using hllex.spaced _ hmark hrlex
    · rw [happly]
      exact (readsLevel_iff hternary).mpr (ReadsAt.compare hrow hmem hlread hrread')

theorem spells_not (reduce : Bool) (h : Spells level text expr) :
    Spells .not ("not " ++ enclose reduce .not .left level text) (.unary "not" expr) := by
  obtain ⟨tokens, hlex, hread⟩ := spells_left reduce .not h (by decide)
  refine ⟨.mark "not" :: tokens, ?_, hread.unary (show _ = some (Rule.leading ["not"]) from rfl) (by decide)⟩
  simpa using hlex.not

theorem spells_sign (reduce : Bool) {op : String} (hop : op ∈ ["-", "+", "~"]) (h : Spells level text expr) :
    Spells .unary (op ++ enclose reduce .unary .left level text) (.unary op expr) := by
  obtain ⟨tokens, hlex, hread⟩ := spells_left reduce .unary h (by decide)
  refine ⟨.mark op :: tokens, ?_, hread.unary rfl hop⟩
  simp only [List.mem_cons, List.not_mem_nil, or_false] at hop
  rcases hop with rfl | rfl | rfl
  · simpa using hlex.signed '-' (by decide)
  · simpa using hlex.signed '+' (by decide)
  · simpa using hlex.signed '~' (by decide)

theorem spells_ternary (reduce : Bool) {t c f : String} {tl cl fl : Level} {whenTrue cond whenFalse : HostExpr}
    (ht : Spells tl t whenTrue) (hc : Spells cl c cond) (hf : Spells fl f whenFalse) :
    Spells .ternary (enclose reduce .ternary .right tl t ++ " if " ++ enclose reduce .ternary .right cl c ++ " else " ++
      enclose reduce .ternary .right fl f) (.conditional cond whenTrue whenFalse) := by
  obtain ⟨ttokens, htlex, htread⟩ := spells_right reduce .ternary ht (by decide)
  obtain ⟨ctokens, hclex, hcread⟩ := spells_right reduce .ternary hc (by decide)
  obtain ⟨ftokens, hflex, hfread⟩ := spells_right reduce .ternary hf (by decide)
  refine ⟨_, ?_, htread.conditional hcread hfread⟩
  simpa using (htlex.spaced "if" (by decide) hclex).spaced "else" (by decide) hflex

/-! ### Names, calls and lists -/

theorem escapeName_notMem (name : String) : escapeName name ∉ keywords := by
  have hreserved : ∀ word ∈ reservedWords, word ++ "_" ∉ keywords := by decide +kernel
  by_cases h : name ∈ reservedWords
  · rw [escapeName_of_mem h]
    exact hreserved name h
  · rw [escapeName_of_notMem h]
    exact h

theorem isIdentifier_escapeName {name : String} (h : IsIdentifier name) : IsIdentifier (escapeName name) := by
  obtain ⟨c, rest, hname, hc, hrest⟩ := h
  by_cases hmem : name ∈ reservedWords
  · refine ⟨c, rest ++ ['_'], ?_, hc, ?_⟩
    · rw [escapeName_of_mem hmem, String.toList_append, hname]
      rfl
    · intro d hd
      rcases List.mem_append.mp hd with hd | hd
      · exact hrest d hd
      · rw [List.mem_singleton.mp hd]
        decide
  · rw [escapeName_of_notMem hmem]
    exact ⟨c, rest, hname, hc, hrest⟩

private theorem wordToken_name {name : String} {word : List Char} (hname : name.toList = word)
    (hkeyword : name ∉ keywords) : wordToken word = .name name := by
  rw [wordToken, ← hname, String.ofList_toList, if_neg hkeyword]

private theorem lexes_name {name : String} (h : IsIdentifier name) (hkeyword : name ∉ keywords) :
    Lexes true name.toList [.name name] := by
  obtain ⟨c, rest, hname, hc, hrest⟩ := h
  rw [hname, ← wordToken_name hname hkeyword]
  exact lexes_word hc hrest

theorem spells_name {name : String} (h : IsIdentifier name) (hkeyword : name ∉ keywords) :
    Spells .atom name (.name name) :=
  spells_atom (lexes_name h hkeyword) (ReadsAt.name name)

theorem spells_ident {name : String} (h : IsIdentifier name) :
    Spells .atom (escapeName name) (.name (escapeName name)) :=
  spells_name (isIdentifier_escapeName h) (escapeName_notMem name)

theorem spells_named {name : String} (hname : IsIdentifier name) (h : Spells level text expr) :
    Spells .atom ("(" ++ escapeName name ++ " := " ++ text ++ ")") (.named (escapeName name) expr) := by
  obtain ⟨tokens, hlex, hread⟩ := h.whole
  have htarget := lexes_name (isIdentifier_escapeName hname) (escapeName_notMem name)
  refine spells_atom ?_ (hread.named (escapeName name))
  simpa using (htarget.weaken.spaced ":=" (by decide) hlex).enclosed '(' ')' (by decide) (by decide)

theorem spells_subscript (reduce : Bool) {i : String} {inner : Level} {index : HostExpr} (h : Spells level text expr)
    (hindex : Spells inner i index) :
    Spells .atom (enclose reduce .atom .left level text ++ "[" ++ i ++ "]") (.subscript expr index) := by
  obtain ⟨tokens, hlex, hread⟩ := spells_left reduce .atom h (by decide)
  obtain ⟨others, hilex, hiread⟩ := hindex.whole
  refine spells_atom ?_ (ReadsAt.subscript hread hiread)
  simpa using hlex.append_bracket (by decide) (hilex.enclosed '[' ']' (by decide) (by decide))

theorem spells_attribute (reduce : Bool) {field : String} (h : Spells level text expr) (hexpr : isNumeric expr = false)
    (hfield : IsIdentifier field) :
    Spells .atom (enclose reduce .atom .left level text ++ "." ++ escapeName field)
      (.attribute expr (escapeName field)) := by
  obtain ⟨outer, ⟨tokens, hlex, hread⟩, hparens⟩ := spells_enclose h reduce .atom .left
  -- only an atom stands before a point without brackets
  have houter : outer = .atom := by
    have := (rank_of_left hparens).1
    cases outer <;> first | rfl | exact absurd this (by decide)
  subst houter
  obtain ⟨c, rest, hname, hc, hrest⟩ := isIdentifier_escapeName hfield
  have htoken := wordToken_name hname (escapeName_notMem field)
  refine spells_atom ?_ (ReadsAt.attribute hread (escapeName field))
  have hfieldLex := Lexes.append_field (by simpa [hexpr] using hlex) hc hrest
  simpa [hname, htoken] using hfieldLex

/-- The texts are read as the expressions where commas separate them. -/
def SpellAll (texts : List String) (exprs : List HostExpr) : Prop :=
  ∃ tokens, List.Forall₂ (Lexes false) (texts.map String.toList) tokens ∧ List.Forall₂ ReadsWhole tokens exprs

theorem spellAll_nil : SpellAll [] [] := ⟨[], .nil, .nil⟩

theorem SpellAll.cons {texts : List String} {exprs : List HostExpr} (h : Spells level text expr)
    (hrest : SpellAll texts exprs) : SpellAll (text :: texts) (expr :: exprs) := by
  obtain ⟨tokens, hlex, hread⟩ := h.whole
  obtain ⟨others, hlexes, hreads⟩ := hrest
  exact ⟨tokens :: others, .cons hlex hlexes, .cons hread hreads⟩

theorem spells_call (reduce : Bool) {texts : List String} {args : List HostExpr} (h : Spells level text expr)
    (hargs : SpellAll texts args) :
    Spells .atom (enclose reduce .atom .left level text ++ "(" ++ ", ".intercalate texts ++ ")") (.call expr args) := by
  obtain ⟨tokens, hlex, hread⟩ := spells_left reduce .atom h (by decide)
  obtain ⟨others, hlexes, hreads⟩ := hargs
  refine spells_atom ?_ (ReadsAt.call hread hreads)
  have hlist := (lexes_intercalate hlexes).enclosed '(' ')' (by decide) (by decide)
  simpa [String.toList_intercalate] using hlex.append_bracket (by decide) hlist

theorem spells_list {texts : List String} {items : List HostExpr} (h : SpellAll texts items) :
    Spells .atom ("[" ++ ", ".intercalate texts ++ "]") (.list items) := by
  obtain ⟨tokens, hlexes, hreads⟩ := h
  refine spells_atom ?_ (ReadsAt.list hreads)
  simpa [String.toList_intercalate] using (lexes_intercalate hlexes).enclosed '[' ']' (by decide) (by decide)

/-! ### All expressions -/

private theorem spellAll_renderExprs {reduce : Bool} {exprs : List Node} {texts : List String}
    (h : ∀ expr ∈ exprs, ∀ text, (renderExpr reduce expr).result = .ok text →
      Spells (binding expr) text (hostExpr expr))
    (htexts : (renderExprs reduce exprs).result = .ok texts) : SpellAll texts (hostExprs exprs) := by
  induction exprs generalizing texts with
  | nil =>
    cases htexts
    exact spellAll_nil
  | cons expr rest ih =>
    obtain ⟨first, others, hfirst, hothers, rfl⟩ := renderExprs_cons.mp htexts
    exact SpellAll.cons (h expr (List.mem_cons_self ..) first hfirst)
      (ih (fun other hother => h other (List.mem_cons_of_mem _ hother)) hothers)

theorem notMem_unaryOperators {op : String} (h : IsIdentifier op) : op ∉ unaryOperators := by
  obtain ⟨c, rest, hop, hc, hrest⟩ := h
  have hword : op.toList.all isWordChar = true := by
    rw [hop, List.all_cons, isWordChar_of_isWordStart hc, Bool.true_and, List.all_eq_true]
    exact hrest
  have hmarks : ∀ other ∈ unaryOperators, other.toList.all isWordChar = false := by decide
  intro hmem
  rw [hmarks op hmem] at hword
  cases hword

theorem hostExpr_call (callee : Node) (args : Option Node) :
    hostExpr (.call callee args) = .call (hostExpr callee) (hostExprs (argsOf args)) := by
  cases args with
  | none => rfl
  | some arg => cases arg <;> rfl

/-- The text of an expression is read as the host expression for which it stands. -/
theorem spells_renderExpr {reduce : Bool} {expr : Node} (h : IsExpression expr) {text : String}
    (htext : (renderExpr reduce expr).result = .ok text) : Spells (binding expr) text (hostExpr expr) := by
  induction h generalizing text with
  | @constant type value hvalue =>
    cases htext
    exact ⟨_, lexes_literalText type hvalue, ReadsAt.literal _⟩
  | ident hname =>
    cases htext
    exact spells_ident hname
  | @binary op left right _ _ ihl ihr =>
    obtain ⟨level, l, r, hop, hl, hr, rfl⟩ := renderExpr_binary.mp htext
    rw [binding, hop, hostExpr]
    exact spells_binary reduce hop (ihl hl) (ihr hr)
  | @not operand _ ih =>
    obtain ⟨inner, hinner, rfl⟩ := renderExpr_not.mp htext
    exact spells_not reduce (ih hinner)
  | @sign op operand hop _ ih =>
    obtain ⟨inner, hinner, rfl⟩ := (renderExpr_sign hop).mp htext
    obtain ⟨hlevel, hexpr⟩ : binding (.unary op operand) = .unary ∧
        hostExpr (.unary op operand) = .unary op (hostExpr operand) := by
      simp only [List.mem_cons, List.not_mem_nil, or_false] at hop
      rcases hop with rfl | rfl | rfl <;> exact ⟨rfl, rfl⟩
    rw [hlevel, hexpr]
    exact spells_sign reduce hop (ih hinner)
  | @address op operand hop _ ih =>
    rw [renderExpr_address hop] at htext
    obtain ⟨hlevel, hexpr⟩ : binding (.unary op operand) = binding operand ∧
        hostExpr (.unary op operand) = hostExpr operand := by
      simp only [List.mem_cons, List.not_mem_nil, or_false] at hop
      rcases hop with rfl | rfl <;> exact ⟨rfl, rfl⟩
    rw [hlevel, hexpr]
    exact ih htext
  | @wordOperator op operand hop hkeyword _ ih =>
    have hother := notMem_unaryOperators hop
    obtain ⟨inner, hinner, rfl⟩ := (renderExpr_wordOperator hother).mp htext
    have hcall := spells_call reduce (spells_name hop hkeyword)
      (SpellAll.cons (ih hinner) spellAll_nil)
    simp only [unaryOperators, List.mem_cons, List.not_mem_nil, or_false, not_or] at hother
    simpa [binding, hostExpr, hother, enclose, needsParens_atom] using hcall
  | @assign op name value hname _ ih =>
    obtain ⟨inner, hinner, rfl⟩ := renderExpr_assign.mp htext
    rw [hostExpr]
    split at hinner
    · rw [if_pos ‹_›]
      exact spells_named hname (ih hinner)
    · obtain ⟨level, l, r, hop, hl, hr, rfl⟩ := renderBinary_eq_ok.mp hinner
      cases hl
      rw [if_neg ‹_›]
      exact spells_named hname (spells_binary reduce hop (spells_ident hname) (ih hr))
  | ternary _ _ _ ihc iht ihf =>
    obtain ⟨t, c, f, ht, hc, hf, rfl⟩ := renderExpr_ternary.mp htext
    exact spells_ternary reduce (iht ht) (ihc hc) (ihf hf)
  | call _ _ ih ihargs =>
    obtain ⟨c, texts, hc, htexts, rfl⟩ := renderExpr_call.mp htext
    rw [hostExpr_call]
    exact spells_call reduce (ih hc) (spellAll_renderExprs (fun arg harg _ => ihargs arg harg) htexts)
  | subscript _ _ ihb ihi =>
    obtain ⟨b, i, hb, hi, rfl⟩ := renderExpr_subscript.mp htext
    exact spells_subscript reduce (ihb hb) (ihi hi)
  | member access _ hnumeric hfield ih =>
    obtain ⟨b, f, hb, hf, rfl⟩ := renderExpr_member.mp htext
    cases hf
    exact spells_attribute reduce (ih hb) hnumeric hfield
  | cast type _ ih => exact ih htext
  | single _ ih => exact ih htext
  | @initList exprs hexprs ih =>
    have hplain : exprs.any isDesignated = false := by
      rw [List.any_eq_false]
      intro expr hexpr
      have := hexprs expr hexpr
      cases this <;> simp [isDesignated]
    obtain ⟨texts, htexts, rfl⟩ := (renderExpr_initList hplain).mp htext
    rw [hostExpr]
    exact spells_list (spellAll_renderExprs (fun expr hexpr _ => ih expr hexpr) htexts)

theorem Spells.readExpr (h : Spells level text expr) : readExpr text = some expr := by
  obtain ⟨tokens, hlex, hread⟩ := h.whole
  have htokens : lex text.toList = some tokens := by
    have := hlex [] (fun _ _ heq => by cases heq)
    simpa [lex_nil] using this
  have hwhole := hread [] (fun _ _ heq => by cases heq) (by simp)
  rw [List.append_nil] at hwhole
  simp [Host.readExpr, htokens, hwhole]

/-! ### Comparisons -/

private theorem isUnchained_applyBinary {op : String} {left right : HostExpr} (hl : left.isUnchained = true)
    (hr : right.isUnchained = true) : (applyBinary op left right).isUnchained = true := by
  unfold applyBinary
  split
  · simp [HostExpr.isUnchained, hl, hr]
  · split
    · simp [HostExpr.isUnchained, hl, hr]
    · split
      · simp [HostExpr.isUnchained, areUnchained, hl, hr]
      · simp [HostExpr.isUnchained, hl, hr]

/-- No expression stands for a chain of comparisons. -/
theorem isUnchained_hostExpr (expr : Node) : (hostExpr expr).isUnchained = true := by
  apply hostExpr.induct (fun expr => (hostExpr expr).isUnchained = true)
    (fun exprs => areUnchained (hostExprs exprs) = true)
  all_goals intros
  case case3 ihl ihr =>
    rw [hostExpr]
    exact isUnchained_applyBinary ihl ihr
  case case8 ih =>
    rw [hostExpr]
    split
    · simpa [HostExpr.isUnchained] using ih
    · simpa [HostExpr.isUnchained] using isUnchained_applyBinary (by simp [HostExpr.isUnchained]) ih
  case case18 => rw [hostExpr] <;> first | assumption | rfl
  all_goals simp [hostExpr, hostExprs, HostExpr.isUnchained, areUnchained, *]

/-- The text of an expression is read as the host expression for which it stands, and both choices of parentheses
give a text for the same expressions. -/
theorem readExpr_renderExpr :
    (∀ expr, IsExpression expr → ∀ (reduce : Bool) (text : String), (renderExpr reduce expr).result = .ok text →
      readExpr text = some (hostExpr expr) ∧ (hostExpr expr).isUnchained = true) ∧
    ∀ expr, (renderExpr true expr).result.isOk = (renderExpr false expr).result.isOk := by
  refine ⟨fun expr h reduce text htext => ?_, isOk_renderExpr true false⟩
  exact ⟨(spells_renderExpr h htext).readExpr, isUnchained_hostExpr expr⟩

/-- `!(a < b) == (x += *p << 2)`. -/
def comparedAssignment : Node :=
  .binary "==" (.unary "!" (.binary "<" (.ident "a") (.ident "b")))
    (.assign "+=" (.ident "x") (.binary "<<" (.unary "*" (.ident "p")) (.constant "int" "2")))

theorem readExpr_comparedAssignment :
    readExpr "(not a < b) == (x := x + (p << 2))" =
      some (.compare (.unary "not" (.compare (.name "a") ["<"] [.name "b"])) ["=="]
        [.named "x" (.binary "+" (.name "x") (.binary "<<" (.name "p") (.literal "2")))]) := by
  have hname : ∀ name ∈ ["a", "b", "x", "p"], IsIdentifier name := by
    intro name hname
    simp only [List.mem_cons, List.not_mem_nil, or_false] at hname
    rcases hname with rfl | rfl | rfl | rfl <;> exact ⟨_, [], rfl, by decide, by simp⟩
  have htwo : IsConstant "2" := Or.inl ⟨'2', [], rfl, by decide, by decide⟩
  have hexpr : IsExpression comparedAssignment :=
    .binary "==" (.not (.binary "<" (.ident (hname "a" (by decide))) (.ident (hname "b" (by decide)))))
      (.assign "+=" (hname "x" (by decide))
        (.binary "<<" (.address (by decide) (.ident (hname "p" (by decide)))) (.constant "int" htwo)))
  have htext : (renderExpr true comparedAssignment).result = .ok "(not a < b) == (x := x + (p << 2))" := by
    decide +kernel
  exact (readExpr_renderExpr.1 comparedAssignment hexpr true _ htext).1

end StubGen.CUnit
