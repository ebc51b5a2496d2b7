import StubGen.CommandLine.Host

/-!
# The command

The program on the files of the machine.
-/

namespace StubGen.CommandLine

/-- The result of an action, if it does not fail. -/
def attempt {α : Type} (action : IO α) : IO (Option α) := do
  match ← action.toBaseIO with
  | .ok value => return some value
  | .error _ => return none

/-- The machine as a host. -/
def machine : Host IO where
  libraries := .plain
  isFile path := do
    let found ← attempt do
      let kind := (← (← IO.FS.realPath path).metadata).type
      return kind matches .file
    return found.getD false
  contents path := attempt (IO.FS.readFile path)
  standardInput := attempt do (← IO.getStdin).readToEnd
  store path text := do return (← attempt (IO.FS.writeFile path text)).isSome

end StubGen.CommandLine

open StubGen.CommandLine in
/-- Runs the program and gives its exit status. -/
def main (args : List String) : IO UInt32 := do
  let outcome ← run machine args
  IO.print outcome.printed
  match outcome with
  | .done _ => pure ()
  | .failed cause => IO.eprintln ("error: " ++ cause.message)
  | .misused => IO.eprintln "error: invalid command line; try --help"
  return outcome.status.toUInt32
