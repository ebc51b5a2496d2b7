import StubGen.Options
import StubGen.Toml.Document

/-!
# Configuration files

A configuration has the options of both engines and the filter of the log.  What it does not set keeps its default,
and what it sets beside that is skipped.
-/

namespace StubGen.CommandLine

/-- The name of the file that is looked for in the working directory. -/
def configName : String := "bindport.toml"

/-- The content of a configuration file. -/
structure Config where
  options : Options := {}
  /-- Which messages the log shows. -/
  logFilter : Option String := none
  deriving DecidableEq, Repr

namespace Config

/-- The filter of the log. -/
def logOfJson : Json → Decoded (Option String) :=
  Json.expectRecord "struct LogConfig" ["filter"] none fun filter name value =>
    match name with
    | "filter" => do return some (← value.expectText)
    | _ => .ok filter

def ofJson : Json → Decoded Config :=
  Json.expectRecord "struct Config" ["c", "dts", "log"] {} fun config name value =>
    match name with
    | "c" => do return { config with options := { config.options with c := ← UnitOptions.ofJson value } }
    | "dts" => do return { config with options := { config.options with dts := ← DeclOptions.ofJson value } }
    | "log" => do return { config with logFilter := ← logOfJson value }
    | _ => .ok config

/-- The configuration of a file's text, if it is one. -/
def parse? (text : String) : Option Config := do (ofJson (← Toml.parse? text)).toOption

end Config

end StubGen.CommandLine
