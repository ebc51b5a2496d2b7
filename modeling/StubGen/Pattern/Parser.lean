import StubGen.Number.Digits
import StubGen.Pattern.Syntax

/-!
# Reading regular expressions

The reader goes over the characters with a stack of open groups.  Look-around and references to groups are refused,
as is everything else that has no meaning.

* `classAfter` reads a class in brackets, with ranges, named classes, nested classes and set operations.
* `CompiledPattern.parse?` reads a whole expression.
-/

namespace StubGen

/-- The flags that are in force. -/
structure PatternFlags where
  /-- Case does not count. -/
  fold : Bool
  /-- A dot stands for line ends too. -/
  dotAll : Bool
  /-- Lines have starts and ends of their own. -/
  multiLine : Bool
  /-- Repetitions are greedy only with a mark. -/
  swapGreed : Bool
  /-- Blanks and comments are skipped. -/
  verbose : Bool
  deriving DecidableEq, Repr

namespace PatternParser

/-- The character of a hexadecimal escape, with the characters after it. -/
def hexEscape? (width : Nat) (chars : List Char) : Option (Char × List Char) :=
  match chars with
  | '\x7b' :: inner =>
    match inner.dropWhile (· ≠ '\x7d') with
    | [] => none
    | _ :: rest => (codePoint? (inner.takeWhile (· ≠ '\x7d'))).map (·, rest)
  | chars =>
    let digits := chars.take width
    if digits.length < width then none else (codePoint? digits).map (·, chars.drop width)

/-- What an escape stands for. -/
inductive Escape where
  | char (c : Char)
  | set (set : CharSet)
  | assertion (assertion : Assertion)

/-- The escape after a backslash, with the characters after it. -/
def escape? : List Char → Option (Escape × List Char)
  | [] => none
  | c :: rest =>
    match c with
    | 'd' => some (.set .digit, rest)
    | 'D' => some (.set (.complement .digit), rest)
    | 's' => some (.set .space, rest)
    | 'S' => some (.set (.complement .space), rest)
    | 'w' => some (.set .word, rest)
    | 'W' => some (.set (.complement .word), rest)
    | 'b' => some (.assertion .wordBoundary, rest)
    | 'B' => some (.assertion .notWordBoundary, rest)
    | 'A' => some (.assertion .textStart, rest)
    | 'z' => some (.assertion .textEnd, rest)
    | '<' => some (.assertion .wordStart, rest)
    | '>' => some (.assertion .wordEnd, rest)
    | 'a' => some (.char '\x07', rest)
    | 'f' => some (.char '\x0c', rest)
    | 't' => some (.char '\t', rest)
    | 'n' => some (.char '\n', rest)
    | 'r' => some (.char '\r', rest)
    | 'v' => some (.char '\x0b', rest)
    | 'x' => (hexEscape? 2 rest).map fun (c, rest) => (.char c, rest)
    | 'u' => (hexEscape? 4 rest).map fun (c, rest) => (.char c, rest)
    | 'U' => (hexEscape? 8 rest).map fun (c, rest) => (.char c, rest)
    | c => if c.toNat < 128 && !c.isAlphanum then some (.char c, rest) else none

/-- The ASCII classes that have a name. -/
def asciiClass? (name : String) : Option CharSet :=
  let lower := CharSet.range 'a' 'z'
  let upper := CharSet.range 'A' 'Z'
  let decimal := CharSet.range '0' '9'
  let alpha := CharSet.union lower upper
  let alnum := CharSet.union alpha decimal
  match name with
  | "alnum" => some alnum
  | "alpha" => some alpha
  | "ascii" => some (.range '\x00' '\x7f')
  | "blank" => some (.union (.single ' ') (.single '\t'))
  | "cntrl" => some (.union (.range '\x00' '\x1f') (.single '\x7f'))
  | "digit" => some decimal
  | "graph" => some (.range '!' '~')
  | "lower" => some lower
  | "print" => some (.range ' ' '~')
  | "punct" => some (.diff (.range '!' '~') alnum)
  | "space" => some (.union (.range '\t' '\r') (.single ' '))
  | "upper" => some upper
  | "word" => some (.union alnum (.single '_'))
  | "xdigit" => some (.union decimal (.union (.range 'a' 'f') (.range 'A' 'F')))
  | _ => none

/-- A named ASCII class after its opening bracket, with the characters after it. -/
def namedClass? (chars : List Char) : Option (CharSet × List Char) :=
  match chars with
  | ':' :: inner =>
    let name := inner.takeWhile Char.isAlpha
    match name, inner with
    | _, '^' :: inner =>
      let name := inner.takeWhile Char.isAlpha
      match inner.drop name.length with
      | ':' :: ']' :: rest => (asciiClass? (String.ofList name)).map fun set => (.complement set, rest)
      | _ => none
    | name, inner =>
      match inner.drop name.length with
      | ':' :: ']' :: rest => (asciiClass? (String.ofList name)).map (·, rest)
      | _ => none
  | _ => none

/-- An operation on classes. -/
inductive SetOp where
  | inter
  | diff
  | symmDiff

/-- The operation that stands at the front. -/
def setOp? : List Char → Option (SetOp × List Char)
  | '&' :: '&' :: rest => some (.inter, rest)
  | '-' :: '-' :: rest => some (.diff, rest)
  | '~' :: '~' :: rest => some (.symmDiff, rest)
  | _ => none

/-- The set on the left of an operation that waits for its right side, and the operation. -/
abbrev Waiting := Option (CharSet × SetOp)

/-- Applies the operation that waits for its right side. -/
def closeOp (waiting : Waiting) (right : CharSet) : CharSet :=
  match waiting with
  | none => right
  | some (left, .inter) => .inter left right
  | some (left, .diff) => .diff left right
  | some (left, .symmDiff) => .symmDiff left right

/-- The first part of a class item: a character that may begin a range, or a set. -/
def classItem? (chars : List Char) : Option ((Char ⊕ CharSet) × List Char) :=
  match chars with
  | [] => none
  | '\\' :: rest => do
    match ← escape? rest with
    | (.char c, rest) => some (.inl c, rest)
    | (.set set, rest) => some (.inr set, rest)
    | (.assertion _, _) => none
  | c :: rest => some (.inl c, rest)

/-- A range or a single item of a class. -/
def classRange? (chars : List Char) : Option (CharSet × List Char) := do
  let (first, rest) ← classItem? chars
  let whole : CharSet :=
    match first with
    | .inl c => .single c
    | .inr set => set
  match rest with
  | '-' :: ']' :: _ => some (whole, rest)
  | '-' :: '-' :: _ => some (whole, rest)
  | '-' :: rest =>
    match first, ← classItem? rest with
    | .inl low, (.inl high, rest) => if low ≤ high then some (.range low high, rest) else none
    | _, _ => none
  | rest => some (whole, rest)

mutual

/-- A class after its opening bracket, with the characters after it. -/
def classAfter (fuel : Nat) (chars : List Char) : Option (CharSet × List Char) :=
  match fuel with
  | 0 => none
  | fuel + 1 =>
    let (negated, chars) :=
      match chars with
      | '^' :: rest => (true, rest)
      | chars => (false, chars)
    let dashes := chars.takeWhile (· = '-')
    let chars := chars.drop dashes.length
    let start : CharSet := if dashes.isEmpty then .nothing else .single '-'
    let (start, chars) :=
      match dashes, chars with
      | [], ']' :: rest => (CharSet.single ']', rest)
      | _, chars => (start, chars)
    (classBody fuel none start chars).map fun (set, rest) => (if negated then .complement set else set, rest)

/-- The items of a class up to its closing bracket; `current` has those read since the last operation. -/
def classBody (fuel : Nat) (waiting : Waiting) (current : CharSet) (chars : List Char) :
    Option (CharSet × List Char) :=
  match fuel with
  | 0 => none
  | fuel + 1 =>
    match chars with
    | [] => none
    | ']' :: rest => some (closeOp waiting current, rest)
    | '[' :: rest =>
      match namedClass? rest with
      | some (set, rest) => classBody fuel waiting (.union current set) rest
      | none => (classAfter fuel rest).bind fun (set, rest) => classBody fuel waiting (.union current set) rest
    | chars =>
      match setOp? chars with
      | some (op, rest) => classBody fuel (some (closeOp waiting current, op)) .nothing rest
      | none => (classRange? chars).bind fun (set, rest) => classBody fuel waiting (.union current set) rest

end

/-- A group that has been opened: its number if it has one, what stood before it, and the flags to return to. -/
structure OpenGroup where
  index : Option Nat
  alternatives : List Pattern
  items : List Pattern
  flags : PatternFlags

/-- The state of the reader.  `items` are the parts of the alternative being read, last one first, and
`alternatives` those before it; `repeatable` says that the last part may be repeated. -/
structure State where
  stack : List OpenGroup
  alternatives : List Pattern
  items : List Pattern
  repeatable : Bool
  flags : PatternFlags
  groups : Nat
  names : List (String × Nat)

/-- The parts in sequence. -/
def sequenceOf (items : List Pattern) : Pattern :=
  items.foldl (fun rest item =>
    match rest with
    | .empty => item
    | rest => .seq item rest) .empty

/-- The alternatives from the last one back to the first. -/
def choiceOf (last : Pattern) (earlier : List Pattern) : Pattern :=
  earlier.foldl (fun rest alternative => .alt alternative rest) last

/-- The expression read so far, of the innermost group. -/
def State.current (state : State) : Pattern := choiceOf (sequenceOf state.items) state.alternatives

/-- Adds a part. -/
def State.add (state : State) (item : Pattern) : State :=
  { state with items := item :: state.items, repeatable := true }

/-- Closes the innermost group. -/
def State.close? (state : State) : Option State :=
  match state.stack with
  | [] => none
  | group :: stack =>
    let inner := state.current
    let item :=
      match group.index with
      | some index => Pattern.group index inner
      | none => inner
    some
      { state with
        stack := stack, alternatives := group.alternatives, items := item :: group.items, repeatable := true
        flags := group.flags }

/-- Opens a group, within which `flags` are in force. -/
def State.openGroup (state : State) (index : Option Nat) (flags : PatternFlags) : State :=
  { state with
    stack := ⟨index, state.alternatives, state.items, state.flags⟩ :: state.stack
    alternatives := [], items := [], repeatable := false, flags := flags }

/-- Opens a group with the next number. -/
def State.openCapture (state : State) (name : Option String) : Option State :=
  let index := state.groups + 1
  match name with
  | none => some { state.openGroup (some index) state.flags with groups := index }
  | some name =>
    if (state.names.lookup name).isSome then none
    else some { state.openGroup (some index) state.flags with groups := index, names := state.names ++ [(name, index)] }

/-- Sets a flag by its letter. -/
def setFlag? (flags : PatternFlags) (value : Bool) : Char → Option PatternFlags
  | 'i' => some { flags with fold := value }
  | 's' => some { flags with dotAll := value }
  | 'm' => some { flags with multiLine := value }
  | 'U' => some { flags with swapGreed := value }
  | 'x' => some { flags with verbose := value }
  | 'u' => if value then some flags else none
  | _ => none

/-- The flags after a list of letters; those after a dash are cleared.  No letter comes twice. -/
def setFlags? (flags : PatternFlags) (value : Bool) (seen : List Char) : List Char → Option PatternFlags
  | [] => if seen.head? = some '-' then none else some flags
  | c :: rest =>
    if seen.contains c then none
    else if c = '-' then setFlags? flags false (c :: seen) rest
    else (setFlag? flags value c).bind fun flags => setFlags? flags value (c :: seen) rest

/-- Whether a character may stand in the name of a group. -/
def isNameChar (first : Bool) (c : Char) : Bool :=
  c = '_' || CodeSet.alphabetic.contains c ||
    (!first && (c = '.' || c = '[' || c = ']' || CodeSet.numeric.contains c))

/-- The name of a group, up to the bracket that ends it. -/
def groupName? (chars : List Char) : Option (String × List Char) :=
  let name := chars.takeWhile (· ≠ '>')
  match name, chars.drop name.length with
  | first :: others, _ :: rest =>
    if isNameChar true first && others.all (isNameChar false) then some (String.ofList name, rest) else none
  | _, _ => none

/-- Reads what follows an opening parenthesis. -/
def openParen? (state : State) (chars : List Char) : Option (State × List Char) :=
  match chars with
  | '?' :: 'P' :: '<' :: rest => do
    let (name, rest) ← groupName? rest
    return (← state.openCapture (some name), rest)
  | '?' :: '<' :: rest => do
    let (name, rest) ← groupName? rest
    return (← state.openCapture (some name), rest)
  | '?' :: rest => do
    let letters := rest.takeWhile fun c => c ≠ ':' && c ≠ ')'
    let flags ← setFlags? state.flags true [] letters
    match rest.drop letters.length with
    | ':' :: rest => some (state.openGroup none flags, rest)
    | ')' :: rest =>
      if letters.isEmpty then none else some ({ state with flags := flags, repeatable := false }, rest)
    | _ => none
  | rest => (state.openCapture none).map (·, rest)

/-- Repeats the last part.  A mark after the count turns greed around. -/
def repeat? (state : State) (least : Nat) (most : Option Nat) (chars : List Char) : Option (State × List Char) :=
  let (marked, rest) :=
    match chars with
    | '?' :: rest => (true, rest)
    | chars => (false, chars)
  match state.repeatable, state.items with
  | true, item :: items =>
    let greedy := marked == state.flags.swapGreed
    some ({ state with items := .repeated item least most greedy :: items }, rest)
  | _, _ => none

/-- A decimal number between blanks, with the characters after it. -/
def decimal? (chars : List Char) : Option Nat × List Char :=
  let chars := chars.dropWhile CodeSet.whiteSpace.contains
  let digits := chars.takeWhile Char.isDigit
  ((digitsValue? 10 digits).filter fun value => !digits.isEmpty && value < 0x100000000,
    (chars.drop digits.length).dropWhile CodeSet.whiteSpace.contains)

/-- Reads the counts of a repetition after the opening brace. -/
def counted? (state : State) (chars : List Char) : Option (State × List Char) := do
  let (least, rest) := decimal? chars
  let least ← least
  match rest with
  | '\x7d' :: rest => repeat? state least (some least) rest
  | ',' :: '\x7d' :: rest => repeat? state least none rest
  | ',' :: rest =>
    let (most, rest) := decimal? rest
    let most ← most
    match rest with
    | '\x7d' :: rest => if least ≤ most then repeat? state least (some most) rest else none
    | _ => none
  | _ => none

/-- Reads the next part, which starts with `c`. -/
def step? (state : State) (c : Char) (rest : List Char) : Option (State × List Char) :=
  match c with
  | '(' => openParen? state rest
  | ')' => state.close?.map (·, rest)
  | '|' =>
    some
      ({ state with
          alternatives := sequenceOf state.items :: state.alternatives, items := [], repeatable := false }, rest)
  | '*' => repeat? state 0 none rest
  | '+' => repeat? state 1 none rest
  | '?' => repeat? state 0 (some 1) rest
  | '\x7b' => counted? state rest
  | '[' =>
    (classAfter (rest.length + 1) rest).map fun (set, rest) => (state.add (.set state.flags.fold set), rest)
  | '.' => some (state.add (.set false (if state.flags.dotAll then .all else .complement (.single '\n'))), rest)
  | '^' => some (state.add (.assertion (if state.flags.multiLine then .lineStart else .textStart)), rest)
  | '$' => some (state.add (.assertion (if state.flags.multiLine then .lineEnd else .textEnd)), rest)
  | '\\' => do
    match ← escape? rest with
    | (.char c, rest) => some (state.add (.set state.flags.fold (.single c)), rest)
    | (.set set, rest) => some (state.add (.set false set), rest)
    | (.assertion condition, rest) => some (state.add (.assertion condition), rest)
  | c =>
    if state.flags.verbose && CodeSet.whiteSpace.contains c then some (state, rest)
    else if state.flags.verbose && c = '#' then some (state, rest.dropWhile (· ≠ '\n'))
    else some (state.add (.set state.flags.fold (.single c)), rest)

/-- Reads all parts; each takes at least one character, so there are no more than `fuel`. -/
def run? : Nat → State → List Char → Option State
  | _, state, [] => some state
  | 0, _, _ :: _ => none
  | fuel + 1, state, c :: rest => (step? state c rest).bind fun (state, rest) => run? fuel state rest

end PatternParser

/-- The expression that a text is. -/
def CompiledPattern.parse? (text : String) : Option CompiledPattern := do
  let chars := text.toList
  let start : PatternParser.State := ⟨[], [], [], false, ⟨false, false, false, false, false⟩, 0, []⟩
  let state ← PatternParser.run? chars.length start chars
  if state.stack.isEmpty then some ⟨state.current, state.names⟩ else none

end StubGen
