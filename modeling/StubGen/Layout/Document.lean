import StubGen.Layout.Imports
import StubGen.Text.Property

/-!
# Documents

A document is a header, an import table and blocks of lines.  Its text has the header and the imports first, then
the blocks, with two empty lines between the parts; parts without content leave no trace.
-/

namespace StubGen

/-- The parts of a module's text. -/
structure Document where
  header : List String
  imports : Imports
  blocks : List (List String)

/-- A text without the blanks at its end. -/
def trimEnd (text : String) : String :=
  String.ofList (text.toList.reverse.dropWhile CodeSet.whiteSpace.contains).reverse

/-- Whether a line consists of blanks only. -/
def isBlankLine (line : String) : Bool := line.toList.all CodeSet.whiteSpace.contains

/-- The lines between the first and the last that are not blank. -/
def trimBlankLines (lines : List String) : List String :=
  ((lines.dropWhile isBlankLine).reverse.dropWhile isBlankLine).reverse

namespace Document

/-- The parts of the text that have content. -/
def sections (document : Document) : List (List String) :=
  ((document.header ++ document.imports.lines) :: document.blocks.map trimBlankLines).filter (· ≠ [])

/-- The text of a section, with an end to every line. -/
def sectionText (lines : List String) : String := String.join (lines.map fun line => trimEnd line ++ "\n")

/-- The text of a document. -/
def render (document : Document) : String :=
  "\n\n".intercalate (document.sections.map sectionText)

end Document

end StubGen
