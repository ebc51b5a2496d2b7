import StubGen.CUnit.Node
import StubGen.ReadError

/-!
# Reading C syntax trees

A node is an object whose `_nodetype` is its kind; its parts are fields.  `Shape.fieldsOf` lists the fields of each
kind with what they hold, `readNode` decodes the fields that are there, and `build` puts a node together.

* Below the root the tag may also be the index of the kind.
* Null stands for an absent part, and for an empty list in a field that must hold one.
* Fields of other names are skipped.
-/

namespace StubGen.CUnit

/-- What a field holds. -/
inductive Shape where
  | text
  | optionalText
  /-- A list of texts, or null for the empty one. -/
  | texts
  | node
  | optionalNode
  /-- A list of nodes, or null for the empty one. -/
  | nodes
  | optionalNodes
  deriving DecidableEq, Repr

/-- The content of a field. -/
inductive Content where
  | text (value : String)
  | optionalText (value : Option String)
  | texts (values : List String)
  | node (value : Node)
  | optionalNode (value : Option Node)
  | nodes (values : List Node)
  | optionalNodes (values : Option (List Node))

/-- The fields of a node that have been decoded. -/
abbrev Fields := List (String × Content)

namespace Shape

/-- The kinds of nodes, each with its fields. -/
def kinds : List (String × List (String × Shape)) := [
  ("FileAST", [("ext", nodes)]),
  ("FuncDef", [("decl", node), ("param_decls", nodes), ("body", node)]),
  ("Decl", [("name", optionalText), ("quals", texts), ("storage", texts), ("type", node), ("init", optionalNode),
    ("bitsize", optionalNode)]),
  ("DeclList", [("decls", nodes)]),
  ("TypeDecl", [("declname", optionalText), ("type", node)]),
  ("IdentifierType", [("names", texts)]),
  ("PtrDecl", [("type", node)]),
  ("ArrayDecl", [("type", node), ("dim", optionalNode)]),
  ("FuncDecl", [("args", optionalNode), ("type", node)]),
  ("ParamList", [("params", nodes)]),
  ("EllipsisParam", []),
  ("Typedef", [("name", text), ("type", node)]),
  ("Typename", [("name", optionalText), ("type", node)]),
  ("Struct", [("name", optionalText), ("decls", optionalNodes)]),
  ("Union", [("name", optionalText), ("decls", optionalNodes)]),
  ("Enum", [("name", optionalText), ("values", optionalNode)]),
  ("EnumeratorList", [("enumerators", nodes)]),
  ("Enumerator", [("name", text), ("value", optionalNode)]),
  ("Constant", [("type", text), ("value", text)]),
  ("ID", [("name", text)]),
  ("BinaryOp", [("op", text), ("left", node), ("right", node)]),
  ("UnaryOp", [("op", text), ("expr", node)]),
  ("Assignment", [("op", text), ("lvalue", node), ("rvalue", node)]),
  ("TernaryOp", [("cond", node), ("iftrue", node), ("iffalse", node)]),
  ("FuncCall", [("name", node), ("args", optionalNode)]),
  ("ArrayRef", [("name", node), ("subscript", node)]),
  ("StructRef", [("name", node), ("type", text), ("field", node)]),
  ("Cast", [("to_type", node), ("expr", node)]),
  ("ExprList", [("exprs", nodes)]),
  ("InitList", [("exprs", nodes)]),
  ("NamedInitializer", [("name", nodes), ("expr", node)]),
  ("CompoundLiteral", [("type", node), ("init", node)]),
  ("Compound", [("block_items", nodes)]),
  ("If", [("cond", node), ("iftrue", node), ("iffalse", optionalNode)]),
  ("For", [("init", optionalNode), ("cond", optionalNode), ("next", optionalNode), ("stmt", node)]),
  ("While", [("cond", node), ("stmt", node)]),
  ("DoWhile", [("cond", node), ("stmt", node)]),
  ("Switch", [("cond", node), ("stmt", node)]),
  ("Case", [("expr", node), ("stmts", nodes)]),
  ("Default", [("stmts", nodes)]),
  ("Break", []),
  ("Continue", []),
  ("Return", [("expr", optionalNode)]),
  ("Goto", [("name", text)]),
  ("Label", [("name", text), ("stmt", node)]),
  ("EmptyStatement", []),
  ("Pragma", [("string", optionalText)]),
  ("StaticAssert", [("cond", node), ("message", optionalNode)])]

/-- The fields of a kind. -/
def fieldsOf? (kind : String) : Option (List (String × Shape)) := kinds.lookup kind

end Shape

namespace Fields

/-- A text that has to be there. -/
def text (fields : Fields) (name : String) : Decoded String :=
  match fields.lookup name with
  | some (.text value) => .ok value
  | _ => .error (.missingField name)

def optionalText (fields : Fields) (name : String) : Option String :=
  match fields.lookup name with
  | some (.optionalText value) => value
  | _ => none

def texts (fields : Fields) (name : String) : List String :=
  match fields.lookup name with
  | some (.texts values) => values
  | _ => []

/-- A node that has to be there. -/
def node (fields : Fields) (name : String) : Decoded Node :=
  match fields.lookup name with
  | some (.node value) => .ok value
  | _ => .error (.missingField name)

def optionalNode (fields : Fields) (name : String) : Option Node :=
  match fields.lookup name with
  | some (.optionalNode value) => value
  | _ => none

def nodes (fields : Fields) (name : String) : List Node :=
  match fields.lookup name with
  | some (.nodes values) => values
  | _ => []

def optionalNodes (fields : Fields) (name : String) : Option (List Node) :=
  match fields.lookup name with
  | some (.optionalNodes values) => values
  | _ => none

end Fields

/-- The node of a kind with these fields.  The first field that is missing is reported. -/
def build (kind : String) (fields : Fields) : Decoded Node :=
  match kind with
  | "FileAST" => .ok (.unit (fields.nodes "ext"))
  | "FuncDef" => do return .function (← fields.node "decl") (fields.nodes "param_decls") (← fields.node "body")
  | "Decl" => do
    return .decl (fields.optionalText "name") (fields.texts "quals") (fields.texts "storage") (← fields.node "type")
      (fields.optionalNode "init") (fields.optionalNode "bitsize")
  | "DeclList" => .ok (.declList (fields.nodes "decls"))
  | "TypeDecl" => do return .typeDecl (fields.optionalText "declname") (← fields.node "type")
  | "IdentifierType" => .ok (.identifierType (fields.texts "names"))
  | "PtrDecl" => do return .pointer (← fields.node "type")
  | "ArrayDecl" => do return .array (← fields.node "type") (fields.optionalNode "dim")
  | "FuncDecl" => do return .functionType (fields.optionalNode "args") (← fields.node "type")
  | "ParamList" => .ok (.paramList (fields.nodes "params"))
  | "EllipsisParam" => .ok .ellipsis
  | "Typedef" => do return .typedef (← fields.text "name") (← fields.node "type")
  | "Typename" => do return .typename (fields.optionalText "name") (← fields.node "type")
  | "Struct" => .ok (.struct (fields.optionalText "name") (fields.optionalNodes "decls"))
  | "Union" => .ok (.union (fields.optionalText "name") (fields.optionalNodes "decls"))
  | "Enum" => .ok (.enum (fields.optionalText "name") (fields.optionalNode "values"))
  | "EnumeratorList" => .ok (.enumeratorList (fields.nodes "enumerators"))
  | "Enumerator" => do return .enumerator (← fields.text "name") (fields.optionalNode "value")
  | "Constant" => do return .constant (← fields.text "type") (← fields.text "value")
  | "ID" => do return .ident (← fields.text "name")
  | "BinaryOp" => do return .binary (← fields.text "op") (← fields.node "left") (← fields.node "right")
  | "UnaryOp" => do return .unary (← fields.text "op") (← fields.node "expr")
  | "Assignment" => do return .assign (← fields.text "op") (← fields.node "lvalue") (← fields.node "rvalue")
  | "TernaryOp" => do return .ternary (← fields.node "cond") (← fields.node "iftrue") (← fields.node "iffalse")
  | "FuncCall" => do return .call (← fields.node "name") (fields.optionalNode "args")
  | "ArrayRef" => do return .subscript (← fields.node "name") (← fields.node "subscript")
  | "StructRef" => do return .member (← fields.node "name") (← fields.text "type") (← fields.node "field")
  | "Cast" => do return .cast (← fields.node "to_type") (← fields.node "expr")
  | "ExprList" => .ok (.exprList (fields.nodes "exprs"))
  | "InitList" => .ok (.initList (fields.nodes "exprs"))
  | "NamedInitializer" => do return .designated (fields.nodes "name") (← fields.node "expr")
  | "CompoundLiteral" => do return .compoundLiteral (← fields.node "type") (← fields.node "init")
  | "Compound" => .ok (.block (fields.nodes "block_items"))
  | "If" => do return .ifElse (← fields.node "cond") (← fields.node "iftrue") (fields.optionalNode "iffalse")
  | "For" => do
    return .forLoop (fields.optionalNode "init") (fields.optionalNode "cond") (fields.optionalNode "next")
      (← fields.node "stmt")
  | "While" => do return .whileLoop (← fields.node "cond") (← fields.node "stmt")
  | "DoWhile" => do return .doLoop (← fields.node "cond") (← fields.node "stmt")
  | "Switch" => do return .switch (← fields.node "cond") (← fields.node "stmt")
  | "Case" => do return .caseLabel (← fields.node "expr") (fields.nodes "stmts")
  | "Default" => .ok (.defaultLabel (fields.nodes "stmts"))
  | "Break" => .ok .breakJump
  | "Continue" => .ok .continueJump
  | "Return" => .ok (.returnJump (fields.optionalNode "expr"))
  | "Goto" => do return .gotoJump (← fields.text "name")
  | "Label" => do return .labelled (← fields.text "name") (← fields.node "stmt")
  | "EmptyStatement" => .ok .empty
  | "Pragma" => .ok (.pragma (fields.optionalText "string"))
  | "StaticAssert" => do return .staticAssert (← fields.node "cond") (fields.optionalNode "message")
  | other => .error (.unknownVariant other (Shape.kinds.map Prod.fst))

/-- The kind of this name and the fields that it may have. -/
def kindNamed (kind : String) : Decoded (String × List (String × Shape)) :=
  match Shape.fieldsOf? kind with
  | some shapes => .ok (kind, shapes)
  | none => .error (.unknownVariant kind (Shape.kinds.map Prod.fst))

/-- The kind at this place of the list of kinds and the fields that it may have. -/
def kindAt (index : Nat) : Decoded (String × List (String × Shape)) :=
  match Shape.kinds[index]? with
  | some entry => .ok entry
  | none => .error (.noVariantAt index Shape.kinds.length)

/-- The kind of a node and the fields that it may have.  A nested node may have an index for its tag. -/
def kindOf (nested : Bool) (fields : List (String × Json)) : Decoded (String × List (String × Shape)) :=
  match fields.lookup "_nodetype" with
  | none => .error (.missingField "_nodetype")
  | some (.text kind) => kindNamed kind
  | some (.int index) =>
    if nested && 0 ≤ index then kindAt index.toNat else .error (.wrongType (.int index) "variant identifier")
  | some found => .error (.wrongType found "variant identifier")

/-- The content of a field without nodes. -/
def readPlain (shape : Shape) (value : Json) : Decoded (Option Content) :=
  match shape with
  | .text => do return some (.text (← value.expectText))
  | .optionalText => do return some (.optionalText (← value.expectOptionalText))
  | .texts =>
    match value with
    | .null => .ok (some (.texts []))
    | value => do return some (.texts (← value.expectTexts))
  | _ => .ok none

mutual

/-- Decodes a node, which may be nested in another one. -/
def readNodeIn (nested : Bool) : Json → Decoded Node
  | .object fields => do
    let (kind, shapes) ← kindOf nested fields
    build kind (← readFields shapes fields)
  | found => .error (.wrongType found "internally tagged enum Node")
termination_by structural value => value

/-- Decodes the items of a list of nodes. -/
def readNodes : List Json → Decoded (List Node)
  | [] => .ok []
  | value :: rest => do return (← readNodeIn true value) :: (← readNodes rest)
termination_by structural values => values

/-- Decodes the fields of a node in the order in which they are given. -/
def readFields (shapes : List (String × Shape)) : List (String × Json) → Decoded Fields
  | [] => .ok []
  | (name, value) :: rest => do
    let content ← (match shapes.lookup name with
      | none => .ok none
      | some .node => return some (.node (← readNodeIn true value))
      | some .optionalNode => do
        if value.isNull then return some (.optionalNode none)
        else return some (.optionalNode (some (← readNodeIn true value)))
      | some .nodes =>
        match value with
        | .null => .ok (some (.nodes []))
        | .array items => return some (.nodes (← readNodes items))
        | found => .error (.wrongType found "a sequence")
      | some .optionalNodes =>
        match value with
        | .null => .ok (some (.optionalNodes none))
        | .array items => return some (.optionalNodes (some (← readNodes items)))
        | found => .error (.wrongType found "a sequence")
      | some shape => readPlain shape value : Decoded (Option Content))
    let others ← readFields shapes rest
    return (content.map fun content => (name, content)).toList ++ others
termination_by structural fields => fields

end

/-- Decodes a node that is a whole document. -/
def readNode : Json → Decoded Node := readNodeIn false

/-- The unit of a document. -/
def readUnit (root : Json) : Except ReadError Node := do
  let node ← (readNode root).mapError .invalid
  match node with
  | .unit _ => return node
  | other => .error (.unexpectedRoot "FileAST" other.kind)

end StubGen.CUnit
