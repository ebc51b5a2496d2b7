/-!
# Reserved words

A name that the output's grammar reserves gets a low line at its end, and no other name changes.
-/

namespace StubGen

/-- The words that cannot be names in the output. -/
def reservedWords : List String := [
  "False", "None", "True", "and", "as", "assert", "async", "await", "break", "class", "continue", "def", "del",
  "elif", "else", "except", "finally", "for", "from", "global", "if", "import", "in", "is", "lambda", "nonlocal",
  "not", "or", "pass", "raise", "return", "try", "while", "with", "yield"]

/-- The name as it is written in the output. -/
def escapeName (name : String) : String := if name ∈ reservedWords then name ++ "_" else name

theorem escapeName_of_notMem {name : String} (h : name ∉ reservedWords) : escapeName name = name := by
  simp [escapeName, h]

theorem escapeName_of_mem {name : String} (h : name ∈ reservedWords) : escapeName name = name ++ "_" := by
  simp [escapeName, h]

end StubGen
