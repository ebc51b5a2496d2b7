import StubGen.Text.Case

/-!
# Regular expressions

* A `CharSet` is a set of characters, built from ranges and named classes.
* A `Pattern` is a regular expression; its groups are numbered from one on.
-/

namespace StubGen

/-- A set of characters. -/
inductive CharSet where
  | nothing
  | range (first last : Char)
  | digit
  | space
  | word
  | complement (set : CharSet)
  | union (a b : CharSet)
  | inter (a b : CharSet)
  deriving Inhabited

namespace CharSet

/-- The characters of words: letters, marks, digits, connectors and the two joiners. -/
def isWordChar (c : Char) : Bool :=
  CodeSet.alphabetic.contains c || CodeSet.mark.contains c || CodeSet.decimalDigit.contains c ||
    CodeSet.connector.contains c || c = '\u200c' || c = '\u200d'

/-- Whether a character is a member.  With `fold`, a range has all characters that differ from one of its own in
case only. -/
def contains (fold : Bool) : CharSet → Char → Bool
  | nothing, _ => false
  | range first last, c =>
    if fold then (caseVariants c).any fun variant => first ≤ variant ∧ variant ≤ last
    else first ≤ c ∧ c ≤ last
  | digit, c => CodeSet.decimalDigit.contains c
  | space, c => CodeSet.whiteSpace.contains c
  | word, c => isWordChar c
  | complement set, c => !contains fold set c
  | union a b, c => contains fold a c || contains fold b c
  | inter a b, c => contains fold a c && contains fold b c

/-- The set of one character. -/
def single (c : Char) : CharSet := range c c

/-- All characters. -/
def all : CharSet := complement nothing

def diff (a b : CharSet) : CharSet := inter a (complement b)

def symmDiff (a b : CharSet) : CharSet := union (diff a b) (diff b a)

end CharSet

/-- A condition on a place in the text. -/
inductive Assertion where
  | textStart
  | textEnd
  | lineStart
  | lineEnd
  | wordBoundary
  | notWordBoundary
  | wordStart
  | wordEnd
  deriving DecidableEq, Repr

/-- A regular expression. -/
inductive Pattern where
  | empty
  /-- One character of a set; with `fold`, case does not count. -/
  | set (fold : Bool) (set : CharSet)
  | assertion (assertion : Assertion)
  | group (index : Nat) (inner : Pattern)
  | seq (first second : Pattern)
  | alt (first second : Pattern)
  /-- At least `least` and at most `most` times, as often as possible if `greedy`. -/
  | repeated (inner : Pattern) (least : Nat) (most : Option Nat) (greedy : Bool)
  deriving Inhabited

/-- A regular expression and the numbers of its named groups. -/
structure CompiledPattern where
  pattern : Pattern
  names : List (String × Nat)
  deriving Inhabited

end StubGen
