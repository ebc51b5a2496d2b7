import StubGen.CommandLine.Host

/-!
# Workspaces

A workspace is a directory tree in memory.  It is a host, so what the program does to files is a function of the
files before.

* `Workspace.resolve?` finds the place that a path leads to.
* `Workspace.host` lets the program work on a workspace.
-/

namespace StubGen.CommandLine

/-- The files below a directory, each by the names on the way to it, and the text of standard input. -/
structure Workspace where
  files : List (List String × String)
  standardInput : String
  deriving DecidableEq, Repr

namespace Workspace

/-- The names on a path; a name that is empty or a dot leads nowhere else. -/
def pathNames (path : String) : List String := (path.splitOn "/").filter fun name => name ≠ "" && name ≠ "."

/-- Whether there is a directory of these names: the workspace itself, or one with a file below it. -/
def isDirectory (workspace : Workspace) (names : List String) : Bool :=
  names.isEmpty || workspace.files.any fun file => names.isPrefixOf file.1 && names.length < file.1.length

/-- Follows names from a directory.  Each step starts in a directory, and two dots lead to the one above. -/
def follow (workspace : Workspace) (place : List String) : List String → Option (List String)
  | [] => some place
  | name :: rest =>
    if !workspace.isDirectory place then none
    else if name = ".." then if place.isEmpty then none else follow workspace place.dropLast rest
    else follow workspace (place ++ [name]) rest

/-- Whether a path can only be a directory. -/
def asksDirectory (path : String) : Bool := path.endsWith "/" || path.endsWith "/." || path = "."

/-- The place of the file that a path leads to, whether it is there or not. -/
def resolve? (workspace : Workspace) (path : String) : Option (List String) :=
  if path.isEmpty || path.startsWith "/" || asksDirectory path then none
  else (workspace.follow [] (pathNames path)).filter fun place => !workspace.isDirectory place

/-- The text of a file. -/
def read? (workspace : Workspace) (path : String) : Option String :=
  (workspace.resolve? path).bind fun place => workspace.files.lookup place

/-- Puts a file at a place. -/
def put (place : List String) (text : String) : List (List String × String) → List (List String × String)
  | [] => [(place, text)]
  | (other, kept) :: rest => if place = other then (place, text) :: rest else (other, kept) :: put place text rest

/-- The workspace after a file has been written; its directory must be there. -/
def write? (workspace : Workspace) (path text : String) : Option Workspace := do
  let place ← workspace.resolve? path
  if workspace.isDirectory place.dropLast then some { workspace with files := put place text workspace.files } else none

/-- A workspace with these files. -/
def ofFiles (files : List (String × String)) (standardInput : String) : Workspace :=
  ⟨files.map fun (path, text) => (pathNames path, text), standardInput⟩

/-- The workspace as a host. -/
def host : Host (StateM Workspace) where
  libraries := .plain
  isFile path := do return ((← get).read? path).isSome
  contents path := do return (← get).read? path
  standardInput := do return some (← get).standardInput
  store path text := do
    match (← get).write? path text with
    | some workspace => do
      set workspace
      return true
    | none => return false

end Workspace

end StubGen.CommandLine
