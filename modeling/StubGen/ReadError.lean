import StubGen.Json.Decode

/-!
# Why a document is not read

A document may hold a value that has the wrong form, a node may lack a part, and the root may be the wrong node.
-/

namespace StubGen

/-- Why a document is no syntax tree. -/
inductive ReadError where
  | invalid (cause : DecodeError)
  /-- A node of this kind lacks a part. -/
  | missing (kind field : String)
  | unexpectedRoot (expected got : String)
  deriving Inhabited

namespace ReadError

/-- The wording of a cause. -/
def message : ReadError → String
  | invalid cause => "invalid AST json: " ++ cause.message
  | missing kind field => kind ++ " node is missing `" ++ field ++ "`"
  | unexpectedRoot expected got => "expected " ++ expected ++ ", got " ++ got

end ReadError

end StubGen
