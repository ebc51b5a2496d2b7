/-!
# Command lines

A command line has options, which may stand before or after the subcommand, the subcommand, and its operands.

* `scan` takes options apart: short ones may be joined, and a value may be attached or follow.
* `parse` gives the invocation of a command line, or says how it ends early.
-/

namespace StubGen.CommandLine

/-- The options. -/
inductive Flag where
  | config
  | verbose
  | version
  | help
  | grammar
  | output
  deriving DecidableEq, Repr

namespace Flag

def short : Flag → Char
  | config => 'c'
  | verbose => 'v'
  | version => 'V'
  | help => 'h'
  | grammar => 'g'
  | output => 'o'

def long : Flag → String
  | config => "config"
  | verbose => "verbose"
  | version => "version"
  | help => "help"
  | grammar => "grammar"
  | output => "output"

def takesValue : Flag → Bool
  | config | grammar | output => true
  | verbose | version | help => false

/-- Whether the value is a path, which is never empty. -/
def isPath : Flag → Bool
  | config | output => true
  | _ => false

end Flag

/-- How a command line ends without a command. -/
inductive Ending where
  /-- It makes no sense. -/
  | usage
  | version
  | help
  deriving DecidableEq, Repr

/-- What a command line gives: values of options, and operands, in order. -/
structure Scanned where
  values : List (Flag × String)
  operands : List String
  deriving DecidableEq, Repr

namespace Scanned

def empty : Scanned := ⟨[], []⟩

/-- Adds the value of an option, which is given at most once. -/
def addValue (scanned : Scanned) (flag : Flag) (value : String) : Except Ending Scanned :=
  if (scanned.values.lookup flag).isSome || (flag.isPath && value.isEmpty) then .error .usage
  else .ok { scanned with values := scanned.values ++ [(flag, value)] }

def addOperand (scanned : Scanned) (operand : String) : Scanned :=
  { scanned with operands := scanned.operands ++ [operand] }

end Scanned

/-- Notes an option without a value. -/
def noteFlag (flag : Flag) : Except Ending Unit :=
  match flag with
  | .version => .error .version
  | .help => .error .help
  | _ => .ok ()

/-- Reads joined short options.  The last one may wait for its value. -/
def scanShort (flags : List Flag) (scanned : Scanned) : List Char → Except Ending (Scanned × Option Flag)
  | [] => .ok (scanned, none)
  | c :: rest =>
    match flags.find? fun flag => flag.short = c with
    | none => .error .usage
    | some flag =>
      if flag.takesValue then
        match rest with
        | [] => .ok (scanned, some flag)
        | '=' :: value => do return (← scanned.addValue flag (String.ofList value), none)
        | value => do return (← scanned.addValue flag (String.ofList value), none)
      else do
        noteFlag flag
        scanShort flags scanned rest

/-- Reads a long option.  It may wait for its value. -/
def scanLong (flags : List Flag) (scanned : Scanned) (chars : List Char) : Except Ending (Scanned × Option Flag) :=
  let name := String.ofList (chars.takeWhile (· ≠ '='))
  match flags.find? fun flag => flag.long = name, chars.dropWhile (· ≠ '=') with
  | none, _ => .error .usage
  | some flag, [] => if flag.takesValue then .ok (scanned, some flag) else do
    noteFlag flag
    return (scanned, none)
  | some flag, _ :: value =>
    if flag.takesValue then do return (← scanned.addValue flag (String.ofList value), none) else .error .usage

/-- Reads arguments.  With `first` it stops at the first operand and gives the arguments after it as well.
`waiting` is the option whose value comes next.  After two dashes, `bare`, everything is an operand; they may not
stand before the first one. -/
def scan (flags : List Flag) (first bare : Bool) (waiting : Option Flag) (scanned : Scanned) :
    List String → Except Ending (Scanned × List String)
  | [] => if waiting.isSome then .error .usage else .ok (scanned, [])
  | arg :: rest =>
    match bare, waiting, arg.toList with
    | true, _, _ => scan flags first true none (scanned.addOperand arg) rest
    | false, none, ['-', '-'] => if first then .error .usage else scan flags first true none scanned rest
    | false, none, '-' :: '-' :: chars => do
      let (scanned, waiting) ← scanLong flags scanned chars
      scan flags first false waiting scanned rest
    | false, none, '-' :: c :: chars => do
      let (scanned, waiting) ← scanShort flags scanned (c :: chars)
      scan flags first false waiting scanned rest
    | false, some _, '-' :: _ :: _ => .error .usage
    | false, some flag, _ => do scan flags first false none (← scanned.addValue flag arg) rest
    | false, none, _ =>
      if first then .ok (scanned.addOperand arg, rest)
      else scan flags first false none (scanned.addOperand arg) rest

/-- What the program is asked to do. -/
inductive Command where
  /-- Generate the module of a document.  The grammar is detected and the module printed unless they are given. -/
  | generate (grammar : Option String) (input : String) (output : Option String)
  | listGrammars
  deriving DecidableEq, Repr

/-- A command, and the configuration file that has been named. -/
structure Invocation where
  config : Option String
  command : Command
  deriving DecidableEq, Repr

/-- The command of a subcommand's name and what follows it. -/
def commandOf (name : String) (args : List String) : Except Ending (Option String × Command) := do
  match name with
  | "translate" => do
    let (scanned, _) ← scan [.config, .verbose, .help, .grammar, .output] false false none .empty args
    match scanned.operands with
    | [input] =>
      if input.isEmpty then .error .usage
      else
        return (scanned.values.lookup .config,
          .generate (scanned.values.lookup .grammar) input (scanned.values.lookup .output))
    | _ => .error .usage
  | "grammars" => do
    let (scanned, _) ← scan [.config, .verbose, .help] false false none .empty args
    if scanned.operands.isEmpty then return (scanned.values.lookup .config, .listGrammars) else .error .usage
  | "help" => .error .help
  | _ => .error .usage

/-- The invocation of a command line.  A configuration that is named after the subcommand counts more than one
that is named before it. -/
def parse (args : List String) : Except Ending Invocation := do
  let (scanned, rest) ← scan [.config, .verbose, .version, .help] true false none .empty args
  match scanned.operands with
  | [name] =>
    let (config, command) ← commandOf name rest
    return ⟨config <|> scanned.values.lookup .config, command⟩
  | _ => .error .usage

end StubGen.CommandLine
