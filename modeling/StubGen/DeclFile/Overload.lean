import StubGen.Layout.Code

/-!
# Overloads

The declarations of a scope that have one emitted name are overloads of each other.  Each of them gets a decorator:
the first one begins the dispatch, and the later ones register with it.

* `Entry.decorate` gives the code of a scope with its decorators.
* `ClassCode` is a class whose members are such a scope.
-/

namespace StubGen.DeclFile

/-- The code of a declaration: its emitted name if it can be overloaded, the blank lines ahead of it, and the
declaration itself. -/
structure Entry where
  name : Option String
  ahead : List Code
  code : List Code

namespace Entry

/-- Code that cannot be overloaded. -/
def plain (code : List Code) : Entry := ⟨none, [], code⟩

/-- How many declarations have a name. -/
def countOf (name : String) (entries : List Entry) : Nat := entries.countP fun entry => entry.name = some name

/-- Whether some name is declared more than once. -/
def hasOverloads (entries : List Entry) : Bool :=
  entries.any fun entry => entry.name.any fun name => 1 < countOf name entries

/-- The decorator of a declaration, with the declarations of the scope and those before it. -/
def decorator (dispatch : String) (all before : List Entry) (name : String) : List Code :=
  if countOf name all ≤ 1 then []
  else if countOf name before = 0 then [.line ("@" ++ dispatch)]
  else [.line ("@" ++ name ++ ".register")]

/-- The code of the declarations after `before`, with their decorators. -/
def decorateFrom (dispatch : String) (all before : List Entry) : List Entry → List Code
  | [] => []
  | entry :: rest =>
    entry.ahead ++ entry.name.elim [] (decorator dispatch all before) ++ entry.code ++
      decorateFrom dispatch all (before ++ [entry]) rest

/-- The code of the declarations of a scope, with their decorators. -/
def decorate (dispatch : String) (entries : List Entry) : List Code := decorateFrom dispatch entries [] entries

end Entry

/-- The code of a class, with its members as the declarations of a scope. -/
structure ClassCode where
  /-- The decorators after the first one. -/
  aliases : List Code
  header : String
  members : List Entry

/-- The code of a class as a whole. -/
def ClassCode.code (decl : ClassCode) : List Code :=
  .blank 2 :: .line "@external" :: decl.aliases ++
    [.suite decl.header (Entry.decorate "singledispatchmethod" decl.members)]

end StubGen.DeclFile
