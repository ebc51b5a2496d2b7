import StubGen.CUnit.Statement

/-!
# The code of C units

`writeUnit` gives the code of a unit as a tree, in which the body of a suite stands inside the suite.  It has the lines
that the generator emits one by one.
-/

namespace StubGen.CUnit

/-- The code of an item of a unit. -/
def writeExternal (options : UnitOptions) (context : Context) (item : Node) : Traced (List Code) :=
  match item with
  | .function decl _ body => do
    let (ahead, head) ← writeSignature options context decl
    let code ← writeStmt options (context.withRole .body) false body
    return ahead ++ [.suite head (Code.orPass code)]
  | .decl .. => writeDecl options context item
  | .typedef name type => writeTypedef options context name type
  | .pragma _ | .staticAssert .. => writeStmt options context false item
  | other => unexpected other "translation unit"

/-- The code of the items of a unit, in order. -/
def writeExternals (options : UnitOptions) : List Node → Traced (List Code)
  | [] => pure []
  | item :: rest => do return (← writeExternal options .outermost item) ++ (← writeExternals options rest)

/-- The code of a unit. -/
def writeUnit (options : UnitOptions) : Node → Traced (List Code)
  | .unit items => writeExternals options items
  | other => unexpected other "translation unit root"

end StubGen.CUnit
