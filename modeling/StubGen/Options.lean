import StubGen.Json.Decode

/-!
# Options

The options of both engines, with their defaults.

* `Options.ofJson` overlays the defaults with the fields that are given, one after the other; a field of another name
  is skipped (`Options.readField`).  The values of the fields may also be given in an array, in the order of the
  fields.
* `Options.toJson` writes every field.
-/

namespace StubGen

/-- A regular expression and what replaces its matches. -/
structure LineRule where
  pattern : String
  replacement : String
  deriving DecidableEq, Repr

/-- What is done to the lines of a generated module. -/
structure FilterOptions where
  /-- The lines before the first one that starts with this text are dropped. -/
  startMarker : Option String := none
  /-- Whether assignments to a peeked stack item become calls that poke it. -/
  stackPoke : Bool := false
  rules : List LineRule := []
  deriving DecidableEq, Repr

/-- The options for C. -/
structure UnitOptions where
  /-- Drop parentheses that precedence makes redundant. -/
  reduceParentheses : Bool := true
  /-- Annotate parameters and results. -/
  typeHints : Bool := false
  /-- Keep locals without initializer. -/
  keepEmptyDeclarations : Bool := false
  /-- Annotate declarations. -/
  annotateDeclarations : Bool := false
  /-- Write classes for structures and unions, and aliases for other type definitions. -/
  emitAggregates : Bool := false
  /-- The function to call in place of a `goto`. -/
  gotoCall : Option String := none
  /-- Lines at the top of the module. -/
  header : List String := []
  filter : FilterOptions := {}
  deriving DecidableEq, Repr

/-- The options for TypeScript declarations. -/
structure DeclOptions where
  /-- The module that provides the decorators. -/
  runtimeModule : String := "bindport.runtime"
  /-- What the names of synthesized types start with. -/
  typeStem : String := "Type"
  /-- Lines at the top of the module. -/
  header : List String := []
  deriving DecidableEq, Repr

/-- The options of both engines. -/
structure Options where
  c : UnitOptions := {}
  dts : DeclOptions := {}
  deriving DecidableEq, Repr

namespace LineRule

/-- Reads a field into the pattern and the replacement that were found so far. -/
def readField (rule : Option String × Option String) (name : String) (value : Json) :
    Decoded (Option String × Option String) :=
  match name with
  | "pattern" => do return (some (← value.expectText), rule.2)
  | "replacement" => do return (rule.1, some (← value.expectText))
  | _ => .ok rule

/-- The report on a field that is not there, or on an array that ends before it. -/
def missing (value : Json) (position : Nat) (name : String) : DecodeError :=
  match value with
  | .array _ => .wrongLength position "struct RewriteRule with 2 elements"
  | _ => .missingField name

/-- Both fields are needed. -/
def ofJson (value : Json) : Decoded LineRule := do
  let (pattern, replacement) ←
    value.expectRecord "struct RewriteRule" ["pattern", "replacement"] (none, none) readField
  match pattern, replacement with
  | some pattern, some replacement => .ok ⟨pattern, replacement⟩
  | none, _ => .error (missing value 0 "pattern")
  | _, none => .error (missing value 1 "replacement")

def toJson (rule : LineRule) : Json :=
  .ofFields [("pattern", .text rule.pattern), ("replacement", .text rule.replacement)]

end LineRule

namespace FilterOptions

def readField (options : FilterOptions) (name : String) (value : Json) : Decoded FilterOptions :=
  match name with
  | "start_marker" => do return { options with startMarker := ← value.expectOptionalText }
  | "stack_poke" => do return { options with stackPoke := ← value.expectBool }
  | "rewrites" => do return { options with rules := ← (← value.expectArray).mapM LineRule.ofJson }
  | _ => .ok options

def ofJson : Json → Decoded FilterOptions :=
  Json.expectRecord "struct PostprocessOptions" ["start_marker", "stack_poke", "rewrites"] {} readField

def toJson (options : FilterOptions) : Json :=
  .ofFields [
    ("start_marker", options.startMarker.elim .null .text),
    ("stack_poke", .bool options.stackPoke),
    ("rewrites", .array (options.rules.map LineRule.toJson))]

end FilterOptions

namespace UnitOptions

def readField (options : UnitOptions) (name : String) (value : Json) : Decoded UnitOptions :=
  match name with
  | "reduce_parentheses" => do return { options with reduceParentheses := ← value.expectBool }
  | "use_type_hints" => do return { options with typeHints := ← value.expectBool }
  | "keep_empty_declarations" => do return { options with keepEmptyDeclarations := ← value.expectBool }
  | "type_hint_declarations" => do return { options with annotateDeclarations := ← value.expectBool }
  | "emit_aggregates" => do return { options with emitAggregates := ← value.expectBool }
  | "goto_call" => do return { options with gotoCall := ← value.expectOptionalText }
  | "header" => do return { options with header := ← value.expectTexts }
  | "postprocess" => do return { options with filter := ← FilterOptions.ofJson value }
  | _ => .ok options

def ofJson : Json → Decoded UnitOptions :=
  Json.expectRecord "struct COptions" ["reduce_parentheses", "use_type_hints", "keep_empty_declarations",
    "type_hint_declarations", "emit_aggregates", "goto_call", "header", "postprocess"] {} readField

def toJson (options : UnitOptions) : Json :=
  .ofFields [
    ("reduce_parentheses", .bool options.reduceParentheses),
    ("use_type_hints", .bool options.typeHints),
    ("keep_empty_declarations", .bool options.keepEmptyDeclarations),
    ("type_hint_declarations", .bool options.annotateDeclarations),
    ("emit_aggregates", .bool options.emitAggregates),
    ("goto_call", options.gotoCall.elim .null .text),
    ("header", .array (options.header.map .text)),
    ("postprocess", options.filter.toJson)]

end UnitOptions

namespace DeclOptions

def readField (options : DeclOptions) (name : String) (value : Json) : Decoded DeclOptions :=
  match name with
  | "runtime_module" => do return { options with runtimeModule := ← value.expectText }
  | "synthesized_prefix" => do return { options with typeStem := ← value.expectText }
  | "header" => do return { options with header := ← value.expectTexts }
  | _ => .ok options

def ofJson : Json → Decoded DeclOptions :=
  Json.expectRecord "struct DtsOptions" ["runtime_module", "synthesized_prefix", "header"] {} readField

def toJson (options : DeclOptions) : Json :=
  .ofFields [
    ("runtime_module", .text options.runtimeModule),
    ("synthesized_prefix", .text options.typeStem),
    ("header", .array (options.header.map .text))]

end DeclOptions

namespace Options

def readField (options : Options) (name : String) (value : Json) : Decoded Options :=
  match name with
  | "c" => do return { options with c := ← UnitOptions.ofJson value }
  | "dts" => do return { options with dts := ← DeclOptions.ofJson value }
  | _ => .ok options

def ofJson : Json → Decoded Options := Json.expectRecord "struct Options" ["c", "dts"] {} readField

def toJson (options : Options) : Json :=
  .ofFields [("c", options.c.toJson), ("dts", options.dts.toJson)]

end Options

end StubGen
