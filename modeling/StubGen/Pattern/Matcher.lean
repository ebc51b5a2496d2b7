import StubGen.Pattern.Syntax

/-!
# Matching

`Pattern.ends` lists the places where a match that starts at a given place can end, the preferred one first.  Of two
ways to reach one place only the preferred one is kept, since what follows depends on the place alone.

* Alternatives are tried from left to right.
* A repetition goes on only with rounds that make progress; just its first round may be empty.
* `CompiledPattern.find?` finds the first match from a place on, and `replaceAll` replaces all matches.
-/

namespace StubGen

/-- A place in a text: the characters before it, last one first, those after it, and the texts of the groups,
latest first. -/
structure Cursor where
  before : List Char
  rest : List Char
  groups : List (Nat × List Char)
  deriving Inhabited

namespace Cursor

def start (text : List Char) : Cursor := ⟨[], text, []⟩

/-- The number of characters before the place. -/
def position (cursor : Cursor) : Nat := cursor.before.length

/-- The text from an earlier place up to this one. -/
def since (cursor earlier : Cursor) : List Char :=
  (cursor.before.take (cursor.position - earlier.position)).reverse

/-- The place after the next character. -/
def next? (cursor : Cursor) : Option Cursor :=
  match cursor.rest with
  | [] => none
  | c :: rest => some { cursor with before := c :: cursor.before, rest := rest }

/-- Whether the character before the place belongs to a word. -/
def afterWord (cursor : Cursor) : Bool := cursor.before.head?.any CharSet.isWordChar

/-- Whether the character after the place belongs to a word. -/
def beforeWord (cursor : Cursor) : Bool := cursor.rest.head?.any CharSet.isWordChar

/-- The first cursor of each position. -/
def distinct (cursors : List Cursor) : List Cursor :=
  (cursors.foldl
    (fun (kept, seen) cursor =>
      if seen.contains cursor.position then (kept, seen) else (cursor :: kept, cursor.position :: seen))
    (([], []) : List Cursor × List Nat)).1.reverse

end Cursor

/-- Whether a condition holds at a place. -/
def Assertion.holds (assertion : Assertion) (cursor : Cursor) : Bool :=
  match assertion with
  | textStart => cursor.before.isEmpty
  | textEnd => cursor.rest.isEmpty
  | lineStart => cursor.before.head?.all (· = '\n')
  | lineEnd => cursor.rest.head?.all (· = '\n')
  | wordBoundary => cursor.afterWord != cursor.beforeWord
  | notWordBoundary => cursor.afterWord == cursor.beforeWord
  | wordStart => !cursor.afterWord && cursor.beforeWord
  | wordEnd => cursor.afterWord && !cursor.beforeWord

namespace Repetition

/-- The place itself, before or after the places reached by further rounds. -/
def withSelf (greedy : Bool) (cursor : Cursor) (further : List Cursor) : List Cursor :=
  if greedy then further ++ [cursor] else cursor :: further

/-- The places reached by any number of rounds that make progress, and all positions visited.  A position is left
out if it has been visited.  Rounds are limited by `fuel`, for which the characters left are enough. -/
def explore (round : Cursor → List Cursor) (greedy : Bool) : Nat → List Nat → Cursor → List Cursor × List Nat
  | 0, visited, cursor => ([cursor], visited)
  | fuel + 1, visited, cursor =>
    if visited.contains cursor.position then ([], visited)
    else
      let (further, visited) :=
        ((round cursor).filter fun reached => cursor.position < reached.position).foldl
          (fun (found, visited) reached =>
            let (more, visited) := explore round greedy fuel visited reached
            (found ++ more, visited))
          ([], cursor.position :: visited)
      (withSelf greedy cursor further, visited)

/-- The places reached by one round or more.  An empty first round is the only one. -/
def oneOrMore (round : Cursor → List Cursor) (greedy : Bool) (cursor : Cursor) : List Cursor :=
  ((round cursor).foldl
    (fun (found, visited) reached =>
      if reached.position = cursor.position then (found ++ [reached], visited)
      else
        let (more, visited) := explore round greedy (reached.rest.length + 1) visited reached
        (found ++ more, visited))
    (([], []) : List Cursor × List Nat)).1

/-- The places reached by exactly `count` rounds. -/
def exactly (round : Cursor → List Cursor) : Nat → Cursor → List Cursor
  | 0, cursor => [cursor]
  | count + 1, cursor => Cursor.distinct ((round cursor).flatMap (exactly round count))

/-- The places reached by at most `count` rounds. -/
def atMost (round : Cursor → List Cursor) (greedy : Bool) : Nat → Cursor → List Cursor
  | 0, cursor => [cursor]
  | count + 1, cursor =>
    Cursor.distinct (withSelf greedy cursor ((round cursor).flatMap (atMost round greedy count)))

/-- The places reached by a repetition. -/
def ends (round : Cursor → List Cursor) (least : Nat) (most : Option Nat) (greedy : Bool) (cursor : Cursor) :
    List Cursor :=
  match most, least with
  | some most, least =>
    Cursor.distinct ((exactly round least cursor).flatMap (atMost round greedy (most - least)))
  | none, 0 => Cursor.distinct (withSelf greedy cursor (oneOrMore round greedy cursor))
  | none, least + 1 => Cursor.distinct ((exactly round least cursor).flatMap (oneOrMore round greedy))

end Repetition

/-- The places where a match that starts at the cursor can end, the preferred one first. -/
def Pattern.ends : Pattern → Cursor → List Cursor
  | empty, cursor => [cursor]
  | set fold members, cursor =>
    match cursor.rest with
    | [] => []
    | c :: rest =>
      if members.contains fold c then [{ cursor with before := c :: cursor.before, rest := rest }] else []
  | assertion condition, cursor => if condition.holds cursor then [cursor] else []
  | group index inner, cursor =>
    (ends inner cursor).map fun reached => { reached with groups := (index, reached.since cursor) :: reached.groups }
  | seq first second, cursor => Cursor.distinct ((ends first cursor).flatMap (ends second))
  | alt first second, cursor => Cursor.distinct (ends first cursor ++ ends second cursor)
  | repeated inner least most greedy, cursor => Repetition.ends (ends inner) least most greedy cursor

/-- A match: where it starts, and the cursor at its end with the texts of its groups. -/
structure Match where
  start : Cursor
  finish : Cursor
  deriving Inhabited

namespace Match

def isEmpty (found : Match) : Bool := found.start.position = found.finish.position

/-- The text of a group: group zero is the match, and a group that takes no part has none. -/
def groupText (found : Match) (index : Nat) : List Char :=
  if index = 0 then found.finish.since found.start else (found.finish.groups.lookup index).getD []

end Match

namespace CompiledPattern

/-- The first match at `before` and the places after it. -/
def findFrom (compiled : CompiledPattern) (before : List Char) : List Char → Option Match
  | [] => ((compiled.pattern.ends ⟨before, [], []⟩).head?).map fun finish => ⟨⟨before, [], []⟩, finish⟩
  | c :: rest =>
    match compiled.pattern.ends ⟨before, c :: rest, []⟩ with
    | finish :: _ => some ⟨⟨before, c :: rest, []⟩, finish⟩
    | [] => findFrom compiled (c :: before) rest

/-- The first match from a place on. -/
def find? (compiled : CompiledPattern) (cursor : Cursor) : Option Match :=
  findFrom compiled cursor.before cursor.rest

/-- The next match.  An empty one where the match before it ended is passed over. -/
def nextMatch? (compiled : CompiledPattern) (lastEnd : Option Nat) (cursor : Cursor) : Option Match := do
  let found ← compiled.find? cursor
  if found.isEmpty && lastEnd = some found.finish.position then compiled.find? (← cursor.next?) else some found

/-- The text from a place on with each match replaced, at most `fuel` of them. -/
def replaceFrom (compiled : CompiledPattern) (replace : Match → List Char) :
    Nat → Option Nat → Cursor → List Char
  | 0, _, cursor => cursor.rest
  | fuel + 1, lastEnd, cursor =>
    match compiled.nextMatch? lastEnd cursor with
    | none => cursor.rest
    | some found =>
      found.start.since cursor ++ replace found ++
        replaceFrom compiled replace fuel (some found.finish.position) { found.finish with groups := [] }

/-- The text with each match replaced.  There are no more matches than places. -/
def replaceAll (compiled : CompiledPattern) (replace : Match → List Char) (text : List Char) : List Char :=
  compiled.replaceFrom replace (text.length + 1) none (.start text)

end CompiledPattern

end StubGen
