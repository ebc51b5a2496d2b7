import StubGen.CommandLine.Arguments
import StubGen.CommandLine.Config
import StubGen.Grammar
import StubGen.Json.Parser

/-!
# The program

The program over a `Host`, which is all it knows of files and standard input, and of what its libraries read.

* `Libraries` read command lines, configurations and documents.  The program asks nothing of them but an answer.
* `run` carries out a command line; its `Outcome` has what is printed and the exit status.
* Nothing is written before everything else has succeeded.
-/

namespace StubGen.CommandLine

/-- The libraries of the program. -/
structure Libraries where
  /-- The invocation of a command line, or how it ends early. -/
  invocation : List String → Except Ending Invocation
  /-- The configuration of a file's text, if it is one. -/
  config? : String → Option Config
  /-- The JSON document of a text, if it is one. -/
  document? : String → Option Json

/-- The deepest nesting that a file may have. -/
def nestingLimit : Nat := 127

/-- Libraries that read the options of the program, the TOML of `Toml.parse?`, and JSON up to a depth. -/
def Libraries.plain : Libraries := ⟨parse, Config.parse?, Json.parse? (some nestingLimit)⟩

/-- What the program may ask of its surroundings. -/
structure Host (m : Type → Type) where
  libraries : Libraries
  /-- Whether a path is a file. -/
  isFile : String → m Bool
  /-- The text of a file, if it can be read. -/
  contents : String → m (Option String)
  /-- The text of standard input, if it can be read. -/
  standardInput : m (Option String)
  /-- Writes the text of a file, and says whether it could. -/
  store : String → String → m Bool

/-- Why a command fails. -/
inductive CommandError where
  | configUnreadable (path : String)
  | configInvalid (path : String)
  | inputUnreadable (path : String)
  | standardInputUnreadable
  | notJson (path : String)
  | unknownGrammar (name : String)
  | notDetected
  | failed (path : String) (cause : Failure)
  | unwritable (path : String)

namespace CommandError

/-- The wording of the cause of a failed generation.  Where a document is invalid, the cause is told after the
message that contains it. -/
def causeText : Failure → String
  | .read (.invalid cause) => (ReadError.invalid cause).message ++ ": " ++ cause.message
  | cause => cause.message

/-- The wording of an error. -/
def message : CommandError → String
  | configUnreadable path => "failed to read config " ++ path
  | configInvalid path => "invalid config " ++ path
  | inputUnreadable path => "failed to read " ++ path
  | standardInputUnreadable => "failed to read stdin"
  | notJson path => path ++ " is not a JSON document"
  | unknownGrammar name => "unknown grammar `" ++ name ++ "`"
  | notDetected => "cannot detect the grammar of this AST; pass --grammar"
  | failed path cause => "failed to translate " ++ path ++ ": " ++ causeText cause
  | unwritable path => "failed to write " ++ path

end CommandError

/-- How a command ends: with what it prints, or with an error. -/
abbrev Result (α : Type) := Except CommandError α

/-- How the program ends. -/
inductive Outcome where
  | done (printed : String)
  | failed (cause : CommandError)
  /-- The command line makes no sense. -/
  | misused

namespace Outcome

/-- The exit status. -/
def status : Outcome → Nat
  | done _ => 0
  | failed _ => 1
  | misused => 2

/-- What is printed. -/
def printed : Outcome → String
  | done text => text
  | _ => ""

def ofResult : Result String → Outcome
  | .ok text => done text
  | .error cause => failed cause

end Outcome

/-- The text that tells the version. -/
def versionText : String := "bindport 0.2.0\n"

/-- The text that tells how the program is used. -/
def helpText : String :=
  "Translate C and TypeScript declaration ASTs into Python binding stubs\n\n" ++
  "Usage: bindport [OPTIONS] <COMMAND>\n\n" ++
  "Commands:\n" ++
  "  translate [-g GRAMMAR] [-o FILE] INPUT  Translate a JSON AST dump into a Python module\n" ++
  "  grammars                                List the available grammars\n\n" ++
  "Options:\n" ++
  "  -c, --config FILE  Config file path (default: ./bindport.toml if present)\n" ++
  "  -v, --verbose      Raise log verbosity\n" ++
  "  -h, --help         Print help\n" ++
  "  -V, --version      Print version\n"

variable {m : Type → Type} [Monad m]

/-- The configuration of a file. -/
def loadFile (host : Host m) (path : String) : ExceptT CommandError m Config := do
  match ← host.contents path with
  | none => throw (.configUnreadable path)
  | some text =>
    match host.libraries.config? text with
    | some config => return config
    | none => throw (.configInvalid path)

/-- The configuration: of the file that is named, or of the one in the working directory if there is one. -/
def loadConfig (host : Host m) (named : Option String) : ExceptT CommandError m Config := do
  match named with
  | some path => loadFile host path
  | none => if ← host.isFile configName then loadFile host configName else return {}

/-- The document of an input; a dash stands for standard input. -/
def loadInput (host : Host m) (path : String) : ExceptT CommandError m Json := do
  let text ←
    if path = "-" then do
      match ← host.standardInput with
      | some text => pure text
      | none => throw .standardInputUnreadable
    else do
      match ← host.contents path with
      | some text => pure text
      | none => throw (.inputUnreadable path)
  match host.libraries.document? text with
  | some root => return root
  | none => throw (.notJson path)

/-- The grammar that is named, or else the one that the document looks like. -/
def chooseGrammar (named : Option String) (root : Json) : Result Grammar :=
  match named with
  | some name => (Grammar.ofName? name).elim (.error (.unknownGrammar name)) .ok
  | none => (Grammar.detect? root).elim (.error .notDetected) .ok

/-- The text of the module of a document. -/
def moduleText (config : Config) (named : Option String) (path : String) (root : Json) : Result String := do
  let grammar ← chooseGrammar named root
  let generated ← (grammar.generate config.options root).mapError (.failed path)
  return generated.text

/-- Carries out a command, and gives what it prints. -/
def execute (host : Host m) (config : Config) : Command → ExceptT CommandError m String
  | .listGrammars => return String.join (Grammar.all.map fun grammar => grammar.name ++ "\n")
  | .generate grammar input output => do
    let root ← loadInput host input
    let text ← liftM (n := ExceptT CommandError m) (moduleText config grammar input root)
    match output with
    | none => return text
    | some path => if ← host.store path text then return "" else throw (.unwritable path)

/-- Carries out a command line. -/
def run (host : Host m) (args : List String) : m Outcome := do
  match host.libraries.invocation args with
  | .error .usage => return .misused
  | .error .version => return .done versionText
  | .error .help => return .done helpText
  | .ok invocation => do
    let command : ExceptT CommandError m String := do
      execute host (← loadConfig host invocation.config) invocation.command
    return .ofResult (← command.run)

end StubGen.CommandLine
