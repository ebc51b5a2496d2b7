import StubGen.Text.Property
import StubGen.Text.CaseTable

/-!
# Upper and lower case of texts

* `upperChars` gives the upper-case form of a character, which may have up to three characters.
* `lowerText` gives the lower-case form of a text; a capital sigma at the end of a word has a form of its own.
* `foldChar` maps characters that differ in case only to one character, and `caseVariants` lists them.
-/

namespace StubGen

/-- The upper-case form of a character. -/
def upperChars (c : Char) : List Char :=
  match upperSequences.lookup c.toNat with
  | some codes => codes.map Char.ofNat
  | none => [Char.ofNat (CaseRun.mapWith upperRuns c.toNat)]

/-- The lower-case form of a character by itself. -/
def lowerChars (c : Char) : List Char :=
  if c = 'İ' then ['i', '\u0307'] else [Char.ofNat (CaseRun.mapWith lowerRuns c.toNat)]

/-- Whether the next character that matters is a letter of some case. -/
def casedNext (chars : List Char) : Bool :=
  ((chars.dropWhile CodeSet.caseIgnorable.contains).head?).any CodeSet.cased.contains

/-- The lower-case form of the characters after `before`, which is the text so far, last character first.  A
capital sigma that ends a word becomes the final form. -/
def lowerFrom (before : List Char) : List Char → List Char
  | [] => []
  | c :: rest =>
    (if c = 'Σ' then (if casedNext before && !casedNext rest then ['ς'] else ['σ']) else lowerChars c) ++
      lowerFrom (c :: before) rest

/-- The lower-case form of a text. -/
def lowerText (chars : List Char) : List Char := lowerFrom [] chars

/-- The character that stands for all that differ from `c` in case only. -/
def foldChar (c : Char) : Char := Char.ofNat (CaseRun.mapWith foldRuns c.toNat)

/-- The characters that differ from `c` in case only, `c` included. -/
def caseVariants (c : Char) : List Char :=
  let folded := foldChar c
  folded :: (foldRuns.filterMap (·.preimage? folded.toNat)).map Char.ofNat

end StubGen
