/-!
# Tokens of the host grammar

`lex` cuts the text of an expression into names, literals and marks; keywords and operators are marks, and blanks
only separate tokens.  A mark of two characters wins over one of its first character alone.

* Names are runs of letters, digits and low lines.
* A number is the longest run of such characters and points, with a sign after the mark of an exponent.
* A quoted literal may have a prefix, and ends at the first quote that is not escaped.

Whether the digits or the escapes in a literal have a value does not matter to the grammar of operators.
-/

namespace StubGen.Host

/-- A token of the text of an expression. -/
inductive Token where
  | name (text : String)
  | literal (text : String)
  | mark (text : String)
  deriving DecidableEq, Repr

/-- The words of the host grammar that are no names. -/
def keywords : List String := [
  "False", "None", "True", "and", "as", "assert", "async", "await", "break", "class", "continue", "def", "del",
  "elif", "else", "except", "finally", "for", "from", "global", "if", "import", "in", "is", "lambda", "nonlocal",
  "not", "or", "pass", "raise", "return", "try", "while", "with", "yield"]

def wordToken (word : List Char) : Token :=
  if String.ofList word ∈ keywords then .mark (String.ofList word) else .name (String.ofList word)

def isWordStart (c : Char) : Bool := c.isAlpha || c = '_'

def isWordChar (c : Char) : Bool := c.isAlphanum || c = '_'

def isQuote (c : Char) : Bool := c = '"' || c = '\''

/-- The characters that a sign may follow in a number. -/
def isExponentMark (hex : Bool) (c : Char) : Bool :=
  if hex then c = 'p' || c = 'P' else c = 'e' || c = 'E'

/-- Whether a number goes on with `c` after the character `previous`. -/
def numberGoesOn (hex : Bool) (previous c : Char) : Bool :=
  isWordChar c || c = '.' || (c = '+' || c = '-') && isExponentMark hex previous

/-- Whether a number that starts with `c` is hexadecimal. -/
def isHexNumber (c : Char) (rest : List Char) : Bool :=
  c = '0' && (rest.head? = some 'x' || rest.head? = some 'X')

/-- Whether a number starts at `c`: with a digit, or with a point before one. -/
def isNumberStart (c : Char) (rest : List Char) : Bool := c.isDigit || c = '.' && rest.head?.any Char.isDigit

/-- The rest of a number after the character `previous`, and what follows the number. -/
def splitNumber (hex : Bool) (previous : Char) : List Char → List Char × List Char
  | [] => ([], [])
  | c :: rest =>
    if numberGoesOn hex previous c then (c :: (splitNumber hex c rest).1, (splitNumber hex c rest).2)
    else ([], c :: rest)

/-- The text up to the closing quote, the quote included, and what follows it. -/
def splitQuoted (quote : Char) : List Char → Option (List Char × List Char)
  | [] => none
  | '\\' :: c :: rest => (splitQuoted quote rest).map fun (text, others) => ('\\' :: c :: text, others)
  | c :: rest =>
    if c = quote then some ([c], rest)
    else if c = '\n' then none
    else (splitQuoted quote rest).map fun (text, others) => (c :: text, others)

/-- The marks of two characters. -/
def doubleMarks : List (List Char) :=
  ["<<", ">>", "<=", ">=", "==", "!=", ":=", "**", "//"].map String.toList

/-- The marks of one character. -/
def singleMarks : List Char := "()[]{},:.+-*/%|&^~<>=@;".toList

def cutQuoted (start : List Char) (quote : Char) (rest : List Char) : Option (Token × List Char) :=
  (splitQuoted quote rest).map fun (text, others) => (.literal (String.ofList (start ++ text)), others)

def cutWord (c : Char) (rest : List Char) : Option (Token × List Char) :=
  let word := c :: rest.takeWhile isWordChar
  match rest.dropWhile isWordChar with
  | [] => some (wordToken word, [])
  | d :: others => if isQuote d then cutQuoted (word ++ [d]) d others else some (wordToken word, d :: others)

def cutNumber (c : Char) (rest : List Char) : Token × List Char :=
  let (number, others) := splitNumber (isHexNumber c rest) c rest
  (.literal (String.ofList (c :: number)), others)

def cutMark (c : Char) (rest : List Char) : Option (Token × List Char) :=
  if c :: rest.take 1 ∈ doubleMarks then some (.mark (String.ofList (c :: rest.take 1)), rest.drop 1)
  else if c ∈ singleMarks then some (.mark (String.ofList [c]), rest)
  else none

/-- The token that starts with `c`, and what follows it. -/
def cut (c : Char) (rest : List Char) : Option (Token × List Char) :=
  if isWordStart c then cutWord c rest
  else if isNumberStart c rest then some (cutNumber c rest)
  else if isQuote c then cutQuoted [c] c rest
  else cutMark c rest

/-! ### Each token is taken from the text -/

private theorem length_splitNumber_le (hex : Bool) (previous : Char) (text : List Char) :
    (splitNumber hex previous text).2.length ≤ text.length := by
  induction text generalizing previous with
  | nil => simp [splitNumber]
  | cons c rest ih =>
    rw [splitNumber]
    split
    · exact Nat.le_trans (ih c) (Nat.le_succ _)
    · exact Nat.le_refl _

private theorem length_splitQuoted_le {quote : Char} {text quoted others : List Char}
    (h : splitQuoted quote text = some (quoted, others)) : others.length ≤ text.length := by
  fun_induction splitQuoted quote text generalizing quoted with
  | case1 => cases h
  | case2 c rest ih =>
    obtain ⟨found, hfound, heq⟩ := Option.map_eq_some_iff.mp h
    cases heq
    have := ih hfound
    simp only [List.length_cons]
    omega
  | case3 rest =>
    cases h
    simp
  | case4 => cases h
  | case5 c rest _ _ _ ih =>
    obtain ⟨found, hfound, heq⟩ := Option.map_eq_some_iff.mp h
    cases heq
    exact Nat.le_trans (ih hfound) (Nat.le_succ _)

private theorem length_cutQuoted_le {start : List Char} {quote : Char} {rest others : List Char} {token : Token}
    (h : cutQuoted start quote rest = some (token, others)) : others.length ≤ rest.length := by
  obtain ⟨found, hfound, heq⟩ := Option.map_eq_some_iff.mp h
  cases heq
  exact length_splitQuoted_le hfound

private theorem length_cutWord_le {c : Char} {rest others : List Char} {token : Token}
    (h : cutWord c rest = some (token, others)) : others.length ≤ rest.length := by
  have hdrop : (rest.dropWhile isWordChar).length ≤ rest.length := (List.dropWhile_sublist _).length_le
  simp only [cutWord] at h
  split at h
  · cases h
    exact Nat.zero_le _
  · rename_i d more hrest
    rw [hrest, List.length_cons] at hdrop
    split at h
    · have := length_cutQuoted_le h
      omega
    · cases h
      exact hdrop

private theorem length_cutMark_le {c : Char} {rest others : List Char} {token : Token}
    (h : cutMark c rest = some (token, others)) : others.length ≤ rest.length := by
  unfold cutMark at h
  split at h
  · cases h
    simp
  · split at h
    · cases h
      exact Nat.le_refl _
    · cases h

theorem length_cut_le {c : Char} {rest others : List Char} {token : Token}
    (h : cut c rest = some (token, others)) : others.length ≤ rest.length := by
  unfold cut at h
  split at h
  · exact length_cutWord_le h
  · split at h
    · cases h
      exact length_splitNumber_le _ _ _
    · split at h
      · exact length_cutQuoted_le h
      · exact length_cutMark_le h

/-- The tokens of a text; none if some part of it is no token. -/
def lex (text : List Char) : Option (List Token) :=
  match text with
  | [] => some []
  | c :: rest =>
    if c = ' ' then lex rest
    else
      match _h : cut c rest with
      | none => none
      | some (token, others) => (lex others).map (token :: ·)
termination_by text.length
decreasing_by
  · exact Nat.lt_succ_self _
  · exact Nat.lt_succ_of_le (length_cut_le _h)

end StubGen.Host
