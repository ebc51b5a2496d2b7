import StubGen.Proofs.Host.Token

/-!
# The grammar of host expressions

`operatorRules` is the table of operators, loosest first; a conditional binds more loosely than all of them, and
calls, subscripts and attributes bind more tightly.  `readExpr` reads a text by this grammar.

* Operators of a `grouped` rule group to the left.
* Operators of a `chained` rule make one comparison of all operands in a row.
* Operators of a `leading` rule stand before their operand, which may have such an operator itself.

An assignment expression stands only where brackets or commas bound it.
-/

namespace StubGen.Host

/-- A host expression. -/
inductive HostExpr where
  | name (text : String)
  | literal (text : String)
  | binary (op : String) (left right : HostExpr)
  /-- A comparison; with more than one operator it is a chain. -/
  | compare (first : HostExpr) (ops : List String) (others : List HostExpr)
  | unary (op : String) (operand : HostExpr)
  | conditional (cond whenTrue whenFalse : HostExpr)
  | named (target : String) (value : HostExpr)
  | call (callee : HostExpr) (args : List HostExpr)
  | subscript (base index : HostExpr)
  | attribute (base : HostExpr) (field : String)
  | list (items : List HostExpr)
  deriving Repr, Inhabited

/-- Operators that bind equally tightly. -/
inductive Rule where
  | grouped (ops : List String)
  | chained (ops : List String)
  | leading (ops : List String)
  deriving DecidableEq, Repr

/-- The operators of the host, loosest first. -/
def operatorRules : List Rule := [
  .grouped ["or"],
  .grouped ["and"],
  .leading ["not"],
  .chained ["<", ">", "<=", ">=", "==", "!="],
  .grouped ["|"],
  .grouped ["^"],
  .grouped ["&"],
  .grouped ["<<", ">>"],
  .grouped ["+", "-"],
  .grouped ["*", "/", "%"],
  .leading ["-", "+", "~"]]

/-- The rest of the tokens after the mark they have to start with. -/
def expect (mark : String) : List Token → Option (List Token)
  | .mark found :: rest => if found = mark then some rest else none
  | _ => none

/-- A reader took one token of `tokens` at least, and left `rest`. -/
structure Progress (tokens rest : List Token) : Type where
  shorter : rest.length < tokens.length

/-- Checks that there was progress; only then another reader goes on with the rest. -/
def progress (tokens rest : List Token) : Option (Progress tokens rest) :=
  if h : rest.length < tokens.length then some ⟨h⟩ else none

theorem progress_eq {tokens rest : List Token} (h : rest.length < tokens.length) : progress tokens rest = some ⟨h⟩ :=
  dif_pos h

mutual

/-- Reads an operand of the operators of `rules`, of which the first is the loosest. -/
def readOperand (rules : List Rule) (tokens : List Token) : Option (HostExpr × List Token) :=
  match rules with
  | .grouped ops :: tighter => do
    let (left, rest) ← readOperand tighter tokens
    let ⟨_⟩ ← progress tokens rest
    readGrouped ops tighter left rest
  | .chained ops :: tighter => do
    let (first, rest) ← readOperand tighter tokens
    let ⟨_⟩ ← progress tokens rest
    let (found, others, rest) ← readChained ops tighter rest
    return (if found.isEmpty then first else .compare first found others, rest)
  | .leading ops :: tighter =>
    match tokens with
    | .mark op :: rest =>
      if op ∈ ops then do
        let (operand, rest) ← readOperand (.leading ops :: tighter) rest
        return (.unary op operand, rest)
      else readOperand tighter (.mark op :: rest)
    | tokens => readOperand tighter tokens
  | [] => do
    let (base, rest) ← readAtom tokens
    let ⟨_⟩ ← progress tokens rest
    readTrailers base rest
termination_by (tokens.length, rules.length + 1)

/-- Reads the operators of a rule and their right operands, after the left operand. -/
def readGrouped (ops : List String) (tighter : List Rule) (left : HostExpr) (tokens : List Token) :
    Option (HostExpr × List Token) :=
  match tokens with
  | .mark op :: others =>
    if op ∈ ops then do
      let (right, rest) ← readOperand tighter others
      let ⟨_⟩ ← progress others rest
      readGrouped ops tighter (.binary op left right) rest
    else some (left, .mark op :: others)
  | _ => some (left, tokens)
termination_by (tokens.length, 0)

/-- Reads the operators of a chain and their right operands. -/
def readChained (ops : List String) (tighter : List Rule) (tokens : List Token) :
    Option (List String × List HostExpr × List Token) :=
  match tokens with
  | .mark op :: others =>
    if op ∈ ops then do
      let (operand, rest) ← readOperand tighter others
      let ⟨_⟩ ← progress others rest
      let (found, operands, rest) ← readChained ops tighter rest
      return (op :: found, operand :: operands, rest)
    else some ([], [], .mark op :: others)
  | _ => some ([], [], tokens)
termination_by (tokens.length, 0)

/-- Reads calls, subscripts and attributes, after what they belong to. -/
def readTrailers (base : HostExpr) (tokens : List Token) : Option (HostExpr × List Token) :=
  match tokens with
  | .mark "(" :: others => do
    let (args, rest) ← readItems ")" others
    let ⟨_⟩ ← progress others rest
    readTrailers (.call base args) rest
  | .mark "[" :: others => do
    let (index, rest) ← readAssignment others
    let rest ← expect "]" rest
    let ⟨_⟩ ← progress others rest
    readTrailers (.subscript base index) rest
  | .mark "." :: .name field :: rest => readTrailers (.attribute base field) rest
  | _ => some (base, tokens)
termination_by (tokens.length, 0)

/-- Reads a name, a literal, a list, or an expression in parentheses. -/
def readAtom (tokens : List Token) : Option (HostExpr × List Token) :=
  match tokens with
  | .name text :: rest => some (.name text, rest)
  | .literal text :: rest => some (.literal text, rest)
  | .mark "(" :: rest => do
    let (expr, rest) ← readAssignment rest
    let rest ← expect ")" rest
    return (expr, rest)
  | .mark "[" :: rest => do
    let (items, rest) ← readItems "]" rest
    return (.list items, rest)
  | _ => none
termination_by (tokens.length, 0)

/-- Reads expressions with commas between them, up to the mark that closes the list. -/
def readItems (close : String) (tokens : List Token) : Option (List HostExpr × List Token) :=
  if tokens.head? = some (.mark close) then some ([], tokens.tail)
  else do
    let (item, rest) ← readAssignment tokens
    match expect "," rest with
    | some others =>
      let ⟨_⟩ ← progress tokens others
      let (items, rest) ← readItems close others
      return (item :: items, rest)
    | none =>
      let rest ← expect close rest
      return ([item], rest)
termination_by (tokens.length, operatorRules.length + 4)

/-- Reads an expression that may be an assignment to a name. -/
def readAssignment (tokens : List Token) : Option (HostExpr × List Token) :=
  match tokens with
  | .name target :: .mark ":=" :: rest => do
    let (value, rest) ← readConditional rest
    return (.named target value, rest)
  | tokens => readConditional tokens
termination_by (tokens.length, operatorRules.length + 3)

/-- Reads an expression that may be a conditional. -/
def readConditional (tokens : List Token) : Option (HostExpr × List Token) := do
  let (value, rest) ← readOperand operatorRules tokens
  match expect "if" rest with
  | some others =>
    let ⟨_⟩ ← progress tokens others
    let (cond, rest) ← readOperand operatorRules others
    let rest ← expect "else" rest
    let ⟨_⟩ ← progress tokens rest
    let (other, rest) ← readConditional rest
    return (.conditional cond value other, rest)
  | none => return (value, rest)
termination_by (tokens.length, operatorRules.length + 2)

end

/-- The expression that a text is; none if it is no expression. -/
def readExpr (text : String) : Option HostExpr := do
  let (expr, rest) ← readConditional (← lex text.toList)
  if rest.isEmpty then return expr else none

mutual

/-- Whether no comparison of the expression is a chain. -/
def HostExpr.isUnchained : HostExpr → Bool
  | .name _ | .literal _ => true
  | .binary _ left right => left.isUnchained && right.isUnchained
  | .compare first ops others => ops.length = 1 && first.isUnchained && areUnchained others
  | .unary _ operand => operand.isUnchained
  | .conditional cond whenTrue whenFalse => cond.isUnchained && whenTrue.isUnchained && whenFalse.isUnchained
  | .named _ value => value.isUnchained
  | .call callee args => callee.isUnchained && areUnchained args
  | .subscript base index => base.isUnchained && index.isUnchained
  | .attribute base _ => base.isUnchained
  | .list items => areUnchained items
termination_by structural expr => expr

/-- Whether none of the expressions has a chain. -/
def areUnchained : List HostExpr → Bool
  | [] => true
  | expr :: rest => expr.isUnchained && areUnchained rest
termination_by structural exprs => exprs

end

end StubGen.Host
