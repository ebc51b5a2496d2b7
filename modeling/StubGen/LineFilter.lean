import StubGen.Options
import StubGen.Pattern.Parser
import StubGen.Pattern.Template

/-!
# Line filters

A filter drops the lines before a marker and substitutes matches in each line that is kept.

* `LineFilter.ofOptions` compiles the expressions; one that has no meaning is refused.
* `LineFilter.apply` works on each line by itself, so lines are never joined or split.
-/

namespace StubGen

/-- A compiled rule: matches of the expression are replaced as the template says. -/
structure CompiledRule where
  pattern : CompiledPattern
  template : String

/-- The rule that makes a call of an assignment to a peeked stack item. -/
def stackPokeRule : LineRule :=
  ⟨"^(\\s*)env\\.stack\\.peek\\((.*?)\\) = (.*)$", "$\x7b1\x7denv.stack.poke($\x7b2\x7d, $\x7b3\x7d)"⟩

structure LineFilter where
  startMarker : Option String
  rules : List CompiledRule

namespace LineFilter

def compileRule (rule : LineRule) : Option CompiledRule := do
  return ⟨← CompiledPattern.parse? rule.pattern, rule.replacement⟩

/-- The filter of the options; none if an expression has no meaning. -/
def ofOptions (options : FilterOptions) : Option LineFilter := do
  let preset := if options.stackPoke then [stackPokeRule] else []
  return ⟨options.startMarker, ← (preset ++ options.rules).mapM compileRule⟩

/-- Whether the filter changes no lines. -/
def isIdentity (filter : LineFilter) : Bool := filter.startMarker.isNone && filter.rules.isEmpty

/-- The lines from the first one on that starts with the marker, or all if there is none. -/
def fromMarker (marker : String) (lines : List String) : List String :=
  let kept := lines.dropWhile fun line => !line.startsWith marker
  if kept.isEmpty then lines else kept

/-- A line after all rules, each working on what the one before it left. -/
def substitute (filter : LineFilter) (line : String) : String :=
  filter.rules.foldl (fun line rule => rule.pattern.substitute rule.template line) line

/-- The lines that are kept, after all rules. -/
def apply (filter : LineFilter) (lines : List String) : List String :=
  let kept := filter.startMarker.elim lines (fromMarker · lines)
  kept.map filter.substitute

theorem length_apply_of_no_marker (filter : LineFilter) (lines : List String) (h : filter.startMarker = none) :
    (filter.apply lines).length = lines.length := by
  simp [apply, h]

end LineFilter

end StubGen
