import StubGen.CUnit.Generator
import StubGen.CUnit.Reader
import StubGen.DeclFile.Generator
import StubGen.DeclFile.Reader
import StubGen.LineFilter

/-!
# Grammars

A grammar is a kind of document with an engine for it.

* `Grammar.ofName?` finds a grammar by its name, and `Grammar.detect?` by the root of a document.
* `Grammar.generate` reads a document and generates its module.
-/

namespace StubGen

/-- The kinds of documents. -/
inductive Grammar where
  /-- Source files of C, parsed. -/
  | c
  /-- Declaration files of TypeScript. -/
  | dts
  deriving DecidableEq, Repr

/-- Why no module is generated. -/
inductive Failure where
  | read (cause : ReadError)
  /-- A pattern of the options has no meaning. -/
  | pattern
  | generate (cause : CUnit.GenerateError)

namespace Failure

/-- The wording of a failure. -/
def message : Failure → String
  | read cause => cause.message
  | pattern => "invalid rewrite pattern"
  | generate cause => cause.message

end Failure

/-- The document of a unit with its lines filtered. -/
def CUnit.generateText (options : UnitOptions) (root : CUnit.Node) : Except Failure String := do
  match LineFilter.ofOptions options.filter with
  | none => .error .pattern
  | some filter => do
    let document ← (CUnit.generate options root).mapError .generate
    let blocks := if filter.isIdentity then document.blocks else document.blocks.map filter.apply
    return { document with blocks := blocks }.render

namespace Grammar

/-- All grammars, in the order in which they are tried. -/
def all : List Grammar := [c, dts]

def name : Grammar → String
  | c => "c"
  | dts => "dts"

/-- The field that the roots of a grammar's documents have. -/
def rootField : Grammar → String
  | c => "_nodetype"
  | dts => "kind"

/-- Whether a document looks like one of the grammar. -/
def accepts (grammar : Grammar) (root : Json) : Bool := (root.get? grammar.rootField).isSome

/-- The grammar of a name. -/
def ofName? (name : String) : Option Grammar := all.find? fun grammar => grammar.name = name

/-- The first grammar that a document looks like. -/
def detect? (root : Json) : Option Grammar := all.find? (·.accepts root)

/-- Reads a document and generates its module. -/
def generate (grammar : Grammar) (options : Options) (root : Json) : Except Failure Generated :=
  match grammar with
  | c => do
    let unit ← (CUnit.readUnit root).mapError .read
    return ⟨← CUnit.generateText options.c unit, []⟩
  | dts => do
    let statements ← (DeclFile.readSource root).mapError .read
    return DeclFile.generate options.dts statements

end Grammar

end StubGen
