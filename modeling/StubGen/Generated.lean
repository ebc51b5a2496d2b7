/-!
# Generated modules

The result of a generation: the text of a module, and reports on what has no form in it.
-/

namespace StubGen

/-- A report of something left out or made less exact; `kind` is the kind of the node. -/
structure Diagnostic where
  kind : String
  message : String
  deriving DecidableEq, Repr

/-- A module's text and the reports on the way to it. -/
structure Generated where
  text : String
  diagnostics : List Diagnostic
  deriving DecidableEq, Repr

end StubGen
