import Mathlib.Data.List.Infix
import StubGen.Proofs.Host.Reading

/-!
# Parentheses that reading needs

No text with fewer opening parentheses is read as an expression than `HostExpr.parens` says: those of its calls, those
in its literals, and one for each operand that binds more loosely than its place allows.

* `HostExpr.looseness` counts the rows of operators below an expression; an operand of the rules `rules` has at most
  `rules.length` rows.
* `parens_le_of_readExpr` is the bound, by an induction that follows the readers.
-/

namespace StubGen.Host

/-! ### Texts and tokens -/

/-- The number of opening parentheses, those in literals included. -/
def openings (text : List Char) : Nat := text.count '('

def Token.chars : Token → List Char
  | .name text | .literal text | .mark text => text.toList

/-- The opening parentheses of a row of tokens. -/
def tokenOpenings (tokens : List Token) : Nat := openings (tokens.flatMap Token.chars)

@[simp] theorem tokenOpenings_nil : tokenOpenings [] = 0 := rfl

@[simp] theorem tokenOpenings_cons (token : Token) (rest : List Token) :
    tokenOpenings (token :: rest) = openings token.chars + tokenOpenings rest := by
  rw [tokenOpenings, List.flatMap_cons, openings, List.count_append]
  rfl

private theorem splitNumber_join (hex : Bool) (previous : Char) (text : List Char) :
    (splitNumber hex previous text).1 ++ (splitNumber hex previous text).2 = text := by
  induction text generalizing previous with
  | nil => rfl
  | cons c rest ih =>
    rw [splitNumber]
    split
    · rw [List.cons_append, ih]
    · rfl

private theorem splitQuoted_join {quote : Char} {text quoted others : List Char}
    (h : splitQuoted quote text = some (quoted, others)) : quoted ++ others = text := by
  fun_induction splitQuoted quote text generalizing quoted with
  | case1 => cases h
  | case2 c rest ih =>
    obtain ⟨found, hfound, heq⟩ := Option.map_eq_some_iff.mp h
    cases heq
    rw [List.cons_append, List.cons_append, ih hfound]
  | case3 rest =>
    cases h
    rfl
  | case4 => cases h
  | case5 c rest _ _ _ ih =>
    obtain ⟨found, hfound, heq⟩ := Option.map_eq_some_iff.mp h
    cases heq
    rw [List.cons_append, ih hfound]

private theorem cutQuoted_join {start rest others : List Char} {quote : Char} {token : Token}
    (h : cutQuoted start quote rest = some (token, others)) : token.chars ++ others = start ++ rest := by
  obtain ⟨found, hfound, heq⟩ := Option.map_eq_some_iff.mp h
  cases heq
  rw [Token.chars, String.toList_ofList, List.append_assoc, splitQuoted_join hfound]

private theorem chars_wordToken (word : List Char) : (wordToken word).chars = word := by
  unfold wordToken
  split <;> exact String.toList_ofList

/-- A token and what follows it are the text. -/
private theorem cut_join {c : Char} {rest others : List Char} {token : Token} (h : cut c rest = some (token, others)) :
    token.chars ++ others = c :: rest := by
  unfold cut at h
  split at h
  · have hword := List.takeWhile_append_dropWhile (p := isWordChar) (l := rest)
    simp only [cutWord] at h
    split at h
    · rename_i hrest
      cases h
      rw [chars_wordToken, List.append_nil]
      rw [hrest, List.append_nil] at hword
      rw [hword]
    · rename_i d more hrest
      rw [hrest] at hword
      split at h
      · rw [cutQuoted_join h]
        simp [hword]
      · cases h
        rw [chars_wordToken, List.cons_append, hword]
  · split at h
    · cases h
      rw [Token.chars, String.toList_ofList, List.cons_append, splitNumber_join]
    · split at h
      · exact cutQuoted_join h
      · unfold cutMark at h
        split at h
        · cases h
          rw [Token.chars, String.toList_ofList, List.cons_append, List.take_append_drop]
        · split at h
          · cases h
            rw [Token.chars, String.toList_ofList]
            rfl
          · cases h

/-- The tokens of a text have its opening parentheses. -/
theorem tokenOpenings_lex {text : List Char} {tokens : List Token} (h : lex text = some tokens) :
    tokenOpenings tokens = openings text := by
  fun_induction lex text generalizing tokens with
  | case1 =>
    cases h
    rfl
  | case2 rest ih =>
    rw [ih h, openings, openings, List.count_cons_of_ne (by decide)]
  | case3 => cases h
  | case4 c rest _ token others hcut ih =>
    obtain ⟨found, hfound, rfl⟩ := Option.map_eq_some_iff.mp h
    rw [tokenOpenings_cons, ih hfound, openings, openings, ← List.count_append, cut_join hcut, openings]

/-! ### Expressions -/

/-- The number of rules from the first with this property on. -/
def rowsFrom (isRow : Rule → Bool) : Nat := operatorRules.length - operatorRules.findIdx isRow

def Rule.isChained : Rule → Bool
  | .chained _ => true
  | _ => false

/-- How many rows of operators are between an expression and the atoms; a conditional is above all rows, and an
assignment above conditionals. -/
def HostExpr.looseness : HostExpr → Nat
  | .binary op _ _ => rowsFrom fun rule => op ∈ rule.between
  | .compare .. => rowsFrom Rule.isChained
  | .unary op _ => rowsFrom fun rule => op ∈ rule.before
  | .conditional .. => operatorRules.length + 1
  | .named .. => operatorRules.length + 2
  | _ => 0

/-- One parenthesis for an expression that is looser than its place allows. -/
def HostExpr.wraps (bound : Nat) (expr : HostExpr) : Nat := if expr.looseness ≤ bound then 0 else 1

mutual

/-- The opening parentheses of an expression, at the least. -/
def HostExpr.parens : HostExpr → Nat
  | .name _ => 0
  | .literal text => openings text.toList
  | .binary op left right =>
    let rows := rowsFrom fun rule => op ∈ rule.between
    (left.parens + left.wraps rows) + (right.parens + right.wraps (rows - 1))
  | .compare first _ others =>
    let rows := rowsFrom Rule.isChained
    (first.parens + first.wraps (rows - 1)) + allParens (rows - 1) others
  | .unary op operand => operand.parens + operand.wraps (rowsFrom fun rule => op ∈ rule.before)
  | .conditional cond whenTrue whenFalse =>
    (whenTrue.parens + whenTrue.wraps operatorRules.length) + (cond.parens + cond.wraps operatorRules.length) +
      (whenFalse.parens + whenFalse.wraps (operatorRules.length + 1))
  | .named _ value => value.parens + value.wraps (operatorRules.length + 1)
  | .call callee args => (callee.parens + callee.wraps 0) + 1 + allParens (operatorRules.length + 2) args
  | .subscript base index => (base.parens + base.wraps 0) + (index.parens + index.wraps (operatorRules.length + 2))
  | .attribute base _ => base.parens + base.wraps 0
  | .list items => allParens (operatorRules.length + 2) items
termination_by structural expr => expr

/-- The opening parentheses of expressions in places that allow this much looseness. -/
def allParens (bound : Nat) : List HostExpr → Nat
  | [] => 0
  | expr :: rest => (expr.parens + expr.wraps bound) + allParens bound rest
termination_by structural exprs => exprs

end

/-- The opening parentheses of an expression in a place that allows this much looseness. -/
def parensAt (bound : Nat) (expr : HostExpr) : Nat := expr.parens + expr.wraps bound

theorem parensAt_mono {expr : HostExpr} {bound looser : Nat} (h : bound ≤ looser) :
    parensAt looser expr ≤ parensAt bound expr := by
  unfold parensAt HostExpr.wraps
  split <;> split <;> omega

/-- A place that allows more looseness needs no more parentheses. -/
private theorem parensAt_loosen {expr : HostExpr} {bound others total : Nat}
    (h : parensAt bound expr + others ≤ total) : parensAt (bound + 1) expr + others ≤ total :=
  (Nat.add_le_add_right (parensAt_mono (Nat.le_succ _)) _).trans h

theorem parensAt_of_le {expr : HostExpr} {bound : Nat} (h : expr.looseness ≤ bound) :
    parensAt bound expr = expr.parens := by
  rw [parensAt, HostExpr.wraps, if_pos h, Nat.add_zero]

theorem parensAt_le (bound : Nat) (expr : HostExpr) : parensAt bound expr ≤ expr.parens + 1 := by
  unfold parensAt HostExpr.wraps
  split <;> omega

theorem parensAt_conditional (cond whenTrue whenFalse : HostExpr) :
    parensAt (operatorRules.length + 1) (.conditional cond whenTrue whenFalse) =
      parensAt operatorRules.length whenTrue + parensAt operatorRules.length cond +
        parensAt (operatorRules.length + 1) whenFalse := rfl

theorem parensAt_named (target : String) (value : HostExpr) :
    parensAt (operatorRules.length + 2) (.named target value) = parensAt (operatorRules.length + 1) value := rfl

theorem parensAt_call (callee : HostExpr) (args : List HostExpr) : parensAt 0 (.call callee args) =
    parensAt 0 callee + 1 + allParens (operatorRules.length + 2) args := rfl

theorem parensAt_subscript (base index : HostExpr) : parensAt 0 (.subscript base index) =
    parensAt 0 base + parensAt (operatorRules.length + 2) index := rfl

theorem parensAt_attribute (base : HostExpr) (field : String) :
    parensAt 0 (.attribute base field) = parensAt 0 base := rfl

theorem parensAt_list (items : List HostExpr) : parensAt 0 (.list items) = allParens (operatorRules.length + 2) items :=
  rfl

theorem allParens_cons (bound : Nat) (expr : HostExpr) (rest : List HostExpr) :
    allParens bound (expr :: rest) = parensAt bound expr + allParens bound rest := rfl

/-! ### Rows -/

section Rows

variable {ops : List String} {op : String} {tighter : List Rule}

private theorem rowsFrom_eq {isRow : Rule → Bool} {rule : Rule} (h : rule :: tighter <:+ operatorRules)
    (hrow : ∀ (n : Nat) (hlt : n < operatorRules.length), operatorRules[n] = rule → operatorRules.findIdx isRow = n) :
    rowsFrom isRow = tighter.length + 1 := by
  obtain ⟨looser, hrules⟩ := h
  have hlength : operatorRules.length = looser.length + (tighter.length + 1) := by
    rw [← hrules, List.length_append, List.length_cons]
  have hlt : looser.length < operatorRules.length := by omega
  have hget : operatorRules[looser.length] = rule := by
    simp only [← hrules, List.getElem_append_right, Nat.le_refl, Nat.sub_self, List.getElem_cons_zero]
  have hindex : operatorRules.findIdx isRow = looser.length := hrow looser.length hlt hget
  rw [rowsFrom, hindex]
  omega

theorem rowsFrom_grouped (h : .grouped ops :: tighter <:+ operatorRules) (hop : op ∈ ops) :
    rowsFrom (fun rule => op ∈ rule.between) = tighter.length + 1 := by
  have htable : ∀ n : Fin operatorRules.length, ∀ op ∈ operatorRules[n].between,
      operatorRules.findIdx (fun rule => op ∈ rule.between) = n := by decide
  refine rowsFrom_eq h fun n hlt hn => htable ⟨n, hlt⟩ op ?_
  rw [Fin.getElem_fin, hn]
  exact hop

theorem rowsFrom_chained (h : .chained ops :: tighter <:+ operatorRules) :
    rowsFrom Rule.isChained = tighter.length + 1 := by
  have htable : ∀ n : Fin operatorRules.length, operatorRules[n].isChained = true →
      operatorRules.findIdx Rule.isChained = n := by decide
  refine rowsFrom_eq h fun n hlt hn => htable ⟨n, hlt⟩ ?_
  rw [Fin.getElem_fin, hn]
  rfl

theorem rowsFrom_leading (h : .leading ops :: tighter <:+ operatorRules) (hop : op ∈ ops) :
    rowsFrom (fun rule => op ∈ rule.before) = tighter.length + 1 := by
  have htable : ∀ n : Fin operatorRules.length, ∀ op ∈ operatorRules[n].before,
      operatorRules.findIdx (fun rule => op ∈ rule.before) = n := by decide
  refine rowsFrom_eq h fun n hlt hn => htable ⟨n, hlt⟩ op ?_
  rw [Fin.getElem_fin, hn]
  exact hop

theorem parens_binary (h : .grouped ops :: tighter <:+ operatorRules) (hop : op ∈ ops) (left right : HostExpr) :
    parensAt (tighter.length + 1) (.binary op left right) =
      parensAt (tighter.length + 1) left + parensAt tighter.length right := by
  have hrows := rowsFrom_grouped h hop
  rw [parensAt_of_le (by rw [HostExpr.looseness, hrows]), HostExpr.parens]
  simp only [hrows, parensAt, Nat.add_sub_cancel]

theorem parens_compare (h : .chained ops :: tighter <:+ operatorRules) (first : HostExpr) (found : List String)
    (others : List HostExpr) : parensAt (tighter.length + 1) (.compare first found others) =
      parensAt tighter.length first + allParens tighter.length others := by
  have hrows := rowsFrom_chained h
  rw [parensAt_of_le (by rw [HostExpr.looseness, hrows]), HostExpr.parens]
  simp only [hrows, parensAt, Nat.add_sub_cancel]

theorem parens_unary (h : .leading ops :: tighter <:+ operatorRules) (hop : op ∈ ops) (operand : HostExpr) :
    parensAt (tighter.length + 1) (.unary op operand) = parensAt (tighter.length + 1) operand := by
  have hrows := rowsFrom_leading h hop
  rw [parensAt_of_le (by rw [HostExpr.looseness, hrows]), HostExpr.parens]
  simp only [hrows, parensAt]

end Rows

/-! ### Reading -/

/-- What `expect` takes is its mark. -/
private theorem eq_of_expect {mark : String} {tokens rest : List Token} (h : expect mark tokens = some rest) :
    tokens = .mark mark :: rest := by
  unfold expect at h
  split at h
  · split at h
    · cases h
      rename_i hmark
      rw [hmark]
    · cases h
  · cases h

private theorem openings_expect {mark : String} {tokens rest : List Token} (h : expect mark tokens = some rest) :
    tokenOpenings rest ≤ tokenOpenings tokens := by
  rw [eq_of_expect h, tokenOpenings_cons]
  omega

/-- Whatever is read as a conditional or less has the parentheses of its expression. -/
private theorem parens_le_readConditional (tokens : List Token) : ∀ expr rest,
    readConditional tokens = some (expr, rest) →
      parensAt (operatorRules.length + 1) expr + tokenOpenings rest ≤ tokenOpenings tokens := by
  apply readConditional.induct
    (fun rules tokens => rules <:+ operatorRules → ∀ expr rest, readOperand rules tokens = some (expr, rest) →
      parensAt rules.length expr + tokenOpenings rest ≤ tokenOpenings tokens)
    (fun base tokens => ∀ expr rest, readTrailers base tokens = some (expr, rest) →
      parensAt 0 expr + tokenOpenings rest ≤ parensAt 0 base + tokenOpenings tokens)
    (fun tokens => ∀ expr rest, readAssignment tokens = some (expr, rest) →
      parensAt (operatorRules.length + 2) expr + tokenOpenings rest ≤ tokenOpenings tokens)
    (fun tokens => ∀ expr rest, readConditional tokens = some (expr, rest) →
      parensAt (operatorRules.length + 1) expr + tokenOpenings rest ≤ tokenOpenings tokens)
    (fun close tokens => ∀ items rest, readItems close tokens = some (items, rest) →
      allParens (operatorRules.length + 2) items + tokenOpenings rest ≤ tokenOpenings tokens)
    (fun tokens => ∀ expr rest, readAtom tokens = some (expr, rest) →
      parensAt 0 expr + tokenOpenings rest ≤ tokenOpenings tokens)
    (fun ops tighter tokens => .chained ops :: tighter <:+ operatorRules → ∀ found others rest,
      readChained ops tighter tokens = some (found, others, rest) →
        allParens tighter.length others + tokenOpenings rest ≤ tokenOpenings tokens)
    (fun ops tighter left tokens => .grouped ops :: tighter <:+ operatorRules → ∀ expr rest,
      readGrouped ops tighter left tokens = some (expr, rest) →
        parensAt (tighter.length + 1) expr + tokenOpenings rest ≤
          parensAt (tighter.length + 1) left + tokenOpenings tokens)
  -- operands
  case case1 =>
    intro tokens ops tighter ihfirst ihnext hsuffix expr rest h
    rw [readOperand] at h
    obtain ⟨⟨left, more⟩, hleft, h⟩ := Option.bind_eq_some_iff.mp h
    obtain ⟨⟨hshorter⟩, -, h⟩ := Option.bind_eq_some_iff.mp h
    have hbound := ihfirst ((List.suffix_cons _ _).trans hsuffix) left more hleft
    have hmore := ihnext left more hshorter hsuffix expr rest h
    have hmono : parensAt (tighter.length + 1) left ≤ parensAt tighter.length left := parensAt_mono (Nat.le_succ _)
    rw [List.length_cons]
    omega
  case case2 =>
    intro tokens ops tighter ihfirst ihnext hsuffix expr rest h
    rw [readOperand] at h
    obtain ⟨⟨first, more⟩, hfirst, h⟩ := Option.bind_eq_some_iff.mp h
    obtain ⟨⟨hshorter⟩, -, h⟩ := Option.bind_eq_some_iff.mp h
    obtain ⟨⟨found, others, others'⟩, hfound, h⟩ := Option.bind_eq_some_iff.mp h
    have hbound := ihfirst ((List.suffix_cons _ _).trans hsuffix) first more hfirst
    have hmore := ihnext more hshorter hsuffix found others others' hfound
    cases h
    rw [List.length_cons]
    split
    · have hmono : parensAt (tighter.length + 1) first ≤ parensAt tighter.length first :=
        parensAt_mono (Nat.le_succ _)
      omega
    · rw [parens_compare hsuffix]
      omega
  case case3 =>
    intro ops tighter op tokens hop ih hsuffix expr rest h
    rw [readOperand, if_pos hop] at h
    obtain ⟨⟨operand, more⟩, hoperand, h⟩ := Option.bind_eq_some_iff.mp h
    cases h
    have hbound := ih hsuffix operand rest hoperand
    rw [List.length_cons] at hbound ⊢
    rw [parens_unary hsuffix hop, tokenOpenings_cons]
    omega
  case case4 =>
    intro ops tighter op tokens hop ih hsuffix expr rest h
    rw [readOperand, if_neg hop] at h
    exact parensAt_loosen (ih ((List.suffix_cons _ _).trans hsuffix) expr rest h)
  case case5 =>
    intro tokens ops tighter hnone ih hsuffix expr rest h
    rw [readOperand] at h
    · have hbound := ih ((List.suffix_cons _ _).trans hsuffix) expr rest h
      exact parensAt_loosen hbound
    · exact hnone
  case case6 =>
    intro tokens ihatom ihnext _ expr rest h
    rw [readOperand] at h
    obtain ⟨⟨base, more⟩, hbase, h⟩ := Option.bind_eq_some_iff.mp h
    obtain ⟨⟨hshorter⟩, -, h⟩ := Option.bind_eq_some_iff.mp h
    have hbound := ihatom base more hbase
    have hmore := ihnext base more hshorter expr rest h
    rw [List.length_nil]
    omega
  -- trailers
  case case7 =>
    intro base tokens ihargs ihnext expr rest h
    rw [readTrailers] at h
    obtain ⟨⟨args, more⟩, hargs, h⟩ := Option.bind_eq_some_iff.mp h
    obtain ⟨⟨hshorter⟩, -, h⟩ := Option.bind_eq_some_iff.mp h
    have hbound := ihargs args more hargs
    have hmore := ihnext args more hshorter expr rest h
    rw [parensAt_call] at hmore
    have hopen : openings (Token.mark "(").chars = 1 := rfl
    rw [tokenOpenings_cons]
    omega
  case case8 =>
    intro base tokens ihindex ihnext expr rest h
    rw [readTrailers] at h
    obtain ⟨⟨index, more⟩, hindex, h⟩ := Option.bind_eq_some_iff.mp h
    obtain ⟨closed, hclosed, h⟩ := Option.bind_eq_some_iff.mp h
    obtain ⟨⟨hshorter⟩, -, h⟩ := Option.bind_eq_some_iff.mp h
    have hbound := ihindex index more hindex
    have hexpect := openings_expect hclosed
    have hmore := ihnext index closed hshorter expr rest h
    rw [parensAt_subscript] at hmore
    rw [tokenOpenings_cons]
    omega
  case case9 =>
    intro base field tokens ih expr rest h
    rw [readTrailers] at h
    have hbound := ih expr rest h
    rw [parensAt_attribute] at hbound
    rw [tokenOpenings_cons, tokenOpenings_cons]
    omega
  case case10 =>
    intro base tokens hcall hsubscript hattribute expr rest h
    rw [readTrailers] at h
    · cases h
      exact Nat.le_refl _
    all_goals assumption
  -- assignments and conditionals
  case case11 =>
    intro target tokens ih expr rest h
    rw [readAssignment] at h
    obtain ⟨⟨value, more⟩, hvalue, h⟩ := Option.bind_eq_some_iff.mp h
    cases h
    have hbound := ih value rest hvalue
    rw [parensAt_named, tokenOpenings_cons, tokenOpenings_cons]
    omega
  case case12 =>
    intro tokens hnone ih expr rest h
    rw [readAssignment] at h
    · exact parensAt_loosen (ih expr rest h)
    · exact hnone
  case case13 =>
    intro tokens ihvalue ihcond ihother expr rest h
    rw [readConditional] at h
    obtain ⟨⟨value, more⟩, hvalue, h⟩ := Option.bind_eq_some_iff.mp h
    have hbound := ihvalue (List.suffix_refl _) value more hvalue
    dsimp only at h
    split at h
    · rename_i others hif
      obtain ⟨⟨hshorter⟩, -, h⟩ := Option.bind_eq_some_iff.mp h
      obtain ⟨⟨cond, more'⟩, hcond, h⟩ := Option.bind_eq_some_iff.mp h
      obtain ⟨more'', helse, h⟩ := Option.bind_eq_some_iff.mp h
      obtain ⟨⟨hshorter'⟩, -, h⟩ := Option.bind_eq_some_iff.mp h
      obtain ⟨⟨other, last⟩, hother, h⟩ := Option.bind_eq_some_iff.mp h
      cases h
      have hcondBound := ihcond others hshorter (List.suffix_refl _) cond more' hcond
      have hotherBound := ihother more'' hshorter' other last hother
      have hifOpen := openings_expect hif
      have helseOpen := openings_expect helse
      dsimp only at helseOpen ⊢
      rw [parensAt_conditional]
      omega
    · cases h
      exact parensAt_loosen hbound
  -- lists
  case case14 =>
    intro close tokens hclose items rest h
    rw [readItems, if_pos hclose] at h
    cases h
    cases tokens with
    | nil => exact Nat.le_refl _
    | cons token others =>
      rw [allParens, tokenOpenings_cons, List.tail_cons]
      omega
  case case15 =>
    intro close tokens hclose ihitem ihrest items rest h
    rw [readItems, if_neg hclose] at h
    obtain ⟨⟨item, more⟩, hitem, h⟩ := Option.bind_eq_some_iff.mp h
    have hbound := ihitem item more hitem
    dsimp only at h
    split at h
    · rename_i others hcomma
      obtain ⟨⟨hshorter⟩, -, h⟩ := Option.bind_eq_some_iff.mp h
      obtain ⟨⟨items', last⟩, hitems, h⟩ := Option.bind_eq_some_iff.mp h
      cases h
      have hrest := ihrest others hshorter items' last hitems
      have hexpect := openings_expect hcomma
      dsimp only
      rw [allParens_cons]
      omega
    · obtain ⟨last, hclosed, h⟩ := Option.bind_eq_some_iff.mp h
      cases h
      have hexpect := openings_expect hclosed
      rw [allParens_cons, allParens]
      omega
  -- atoms
  case case16 =>
    intro text tokens expr rest h
    rw [readAtom] at h
    cases h
    rw [tokenOpenings_cons]
    exact Nat.add_le_add_right (Nat.zero_le _) _
  case case17 =>
    intro text tokens expr rest h
    rw [readAtom] at h
    cases h
    rw [tokenOpenings_cons]
    exact Nat.le_refl _
  case case18 =>
    intro tokens ih expr rest h
    rw [readAtom] at h
    obtain ⟨⟨inner, more⟩, hinner, h⟩ := Option.bind_eq_some_iff.mp h
    obtain ⟨closed, hclosed, h⟩ := Option.bind_eq_some_iff.mp h
    cases h
    have hbound := ih expr more hinner
    have hexpect := openings_expect hclosed
    have hle := parensAt_le 0 expr
    have hparens : expr.parens ≤ parensAt (operatorRules.length + 2) expr := Nat.le_add_right _ _
    have hopen : openings (Token.mark "(").chars = 1 := rfl
    rw [tokenOpenings_cons]
    omega
  case case19 =>
    intro tokens ih expr rest h
    rw [readAtom] at h
    obtain ⟨⟨items, more⟩, hitems, h⟩ := Option.bind_eq_some_iff.mp h
    cases h
    have hbound := ih items rest hitems
    rw [parensAt_list, tokenOpenings_cons]
    omega
  case case20 =>
    intro tokens hname hliteral hparen hbracket expr rest h
    rw [readAtom] at h
    · cases h
    all_goals assumption
  -- chains
  case case21 =>
    intro ops tighter op tokens hop ihoperand ihnext hsuffix found others rest h
    rw [readChained, if_pos hop] at h
    obtain ⟨⟨operand, more⟩, hoperand, h⟩ := Option.bind_eq_some_iff.mp h
    obtain ⟨⟨hshorter⟩, -, h⟩ := Option.bind_eq_some_iff.mp h
    obtain ⟨⟨found', operands, last⟩, hfound, h⟩ := Option.bind_eq_some_iff.mp h
    cases h
    have hbound := ihoperand ((List.suffix_cons _ _).trans hsuffix) operand more hoperand
    have hmore := ihnext more hshorter hsuffix found' operands rest hfound
    rw [allParens_cons, tokenOpenings_cons]
    omega
  case case22 =>
    intro ops tighter op tokens hop _ found others rest h
    rw [readChained, if_neg hop] at h
    cases h
    rw [allParens, Nat.zero_add]
  case case23 =>
    intro ops tighter tokens hnone _ found others rest h
    rw [readChained] at h
    · cases h
      rw [allParens, Nat.zero_add]
    · exact hnone
  -- groups
  case case24 =>
    intro ops tighter left op tokens hop ihright ihnext hsuffix expr rest h
    rw [readGrouped, if_pos hop] at h
    obtain ⟨⟨right, more⟩, hright, h⟩ := Option.bind_eq_some_iff.mp h
    obtain ⟨⟨hshorter⟩, -, h⟩ := Option.bind_eq_some_iff.mp h
    have hbound := ihright ((List.suffix_cons _ _).trans hsuffix) right more hright
    have hmore := ihnext right more hshorter hsuffix expr rest h
    rw [parens_binary hsuffix hop] at hmore
    rw [tokenOpenings_cons]
    omega
  case case25 =>
    intro ops tighter left op tokens hop _ expr rest h
    rw [readGrouped, if_neg hop] at h
    cases h
    exact Nat.le_refl _
  case case26 =>
    intro ops tighter left tokens hnone _ expr rest h
    rw [readGrouped] at h
    · cases h
      exact Nat.le_refl _
    · exact hnone

/-- A text that is read as an expression has the opening parentheses of the expression. -/
theorem parens_le_of_readExpr {text : String} {expr : HostExpr} (h : readExpr text = some expr) :
    parensAt (operatorRules.length + 1) expr ≤ openings text.toList := by
  obtain ⟨tokens, htokens, h⟩ := Option.bind_eq_some_iff.mp h
  obtain ⟨⟨found, rest⟩, hfound, h⟩ := Option.bind_eq_some_iff.mp h
  dsimp only at h
  split at h
  · cases h
    have hbound := parens_le_readConditional tokens expr rest hfound
    rw [tokenOpenings_lex htokens] at hbound
    omega
  · cases h

end StubGen.Host
