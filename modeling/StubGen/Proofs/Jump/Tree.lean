import StubGen.CUnit.Context
import StubGen.Proofs.Expression.Syntax

/-!
# Trees over tokens

`OverTokens` holds of the syntax trees whose names and constants are tokens of C, and `JumpsInPlace` of those that have
no jump where the grammar of C has expressions.

* `Node.parts` lists the nodes of which a node is made.
* `Node.names` and `Node.constants` list what stands in the node itself.
-/

namespace StubGen.CUnit

/-- Names of C and the words of its types.  Of the keywords of C only the jumps matter here. -/
def IsName (name : String) : Prop := IsIdentifier name ∧ name ∉ ["break", "continue"]

namespace Node

/-- The names that stand in a node itself. -/
def names : Node → List String
  | decl name .. | typeDecl name _ | typename name _ | struct name _ | union name _ | enum name _ => name.toList
  | identifierType words => words
  | typedef name _ | enumerator name _ | ident name | gotoJump name | labelled name _ => [name]
  | _ => []

/-- The constants that stand in a node itself. -/
def constants : Node → List String
  | constant _ value => [value]
  | _ => []

/-- The nodes of which a node is made. -/
def parts : Node → List Node
  | unit nodes | declList nodes | paramList nodes | enumeratorList nodes | exprList nodes | initList nodes
  | block nodes | defaultLabel nodes => nodes
  | struct _ members | union _ members => members.getD []
  | function head params body => head :: body :: params
  | decl _ _ _ type init width => type :: (init.toList ++ width.toList)
  | typeDecl _ type | typedef _ type | typename _ type | pointer type => [type]
  | array element size => element :: size.toList
  | functionType params result => result :: params.toList
  | enum _ part | enumerator _ part | returnJump part => part.toList
  | unary _ operand => [operand]
  | binary _ first second | assign _ first second | subscript first second | member first _ second
  | cast first second | compoundLiteral first second | whileLoop first second | doLoop first second
  | switch first second => [first, second]
  | ternary cond whenTrue whenFalse => [cond, whenTrue, whenFalse]
  | call callee args => callee :: args.toList
  | designated path value => value :: path
  | ifElse cond whenTrue whenFalse => cond :: whenTrue :: whenFalse.toList
  | forLoop init cond next body => body :: (init.toList ++ cond.toList ++ next.toList)
  | caseLabel label stmts => label :: stmts
  | labelled _ stmt => [stmt]
  | staticAssert cond note => cond :: note.toList
  | identifierType _ | ellipsis | constant .. | ident _ | breakJump | continueJump | gotoJump _ | empty | pragma _ => []

/-- The parts that are written as statements though the grammar of C has expressions or declarations in their place:
the members of a comma list, and what initializes a loop. -/
def headParts : Node → List Node
  | exprList exprs => exprs
  | forLoop init _ _ _ => init.toList
  | _ => []

theorem sizeOf_lt_of_mem_parts {node part : Node} (h : part ∈ node.parts) : sizeOf part < sizeOf node := by
  have hlist : ∀ nodes : List Node, part ∈ nodes → sizeOf part < sizeOf nodes := fun _ => List.sizeOf_lt_of_mem
  have hfound : ∀ found : Option Node, part ∈ found.toList → sizeOf part < sizeOf found := by
    intro found hmem
    cases Option.mem_toList.mp hmem
    simp
  have hfounds : ∀ found : Option (List Node), part ∈ found.getD [] → sizeOf part < sizeOf found := by
    rintro (- | nodes) hmem
    · cases hmem
    · have := hlist nodes hmem
      simp only [Option.some.sizeOf_spec]
      omega
  cases node <;> grind [Node.parts]

end Node

/-- A property holds of a node and of all the nodes below it. -/
inductive Everywhere (P : Node → Prop) : Node → Prop
  | of_parts {node : Node} : P node → (∀ part ∈ node.parts, Everywhere P part) → Everywhere P node

namespace Everywhere

variable {P Q : Node → Prop} {node : Node}

theorem self (h : Everywhere P node) : P node := by
  cases h
  assumption

theorem parts (h : Everywhere P node) : ∀ part ∈ node.parts, Everywhere P part := by
  cases h
  assumption

/-- What holds of a node whenever it holds everywhere below it holds everywhere. -/
theorem derive (h : Everywhere P node)
    (step : ∀ node, Everywhere P node → (∀ part ∈ node.parts, Everywhere Q part) → Q node) : Everywhere Q node := by
  induction h with
  | of_parts self parts ih => exact .of_parts (step _ (.of_parts self parts) ih) ih

theorem mono (h : Everywhere P node) (hmono : ∀ node, P node → Q node) : Everywhere Q node :=
  h.derive fun node hnode _ => hmono node hnode.self

theorem and (h : Everywhere P node) (h' : Everywhere Q node) : Everywhere (fun node => P node ∧ Q node) node := by
  revert h'
  induction h with
  | of_parts self _ ih =>
    exact fun h' => .of_parts ⟨self, h'.self⟩ fun part hpart => ih part hpart (h'.parts part hpart)

/-- What holds of all nodes holds everywhere. -/
theorem of_forall (h : ∀ node, P node) (node : Node) : Everywhere P node :=
  .of_parts (h node) fun part _ => of_forall h part
termination_by sizeOf node
decreasing_by exact Node.sizeOf_lt_of_mem_parts ‹_›

end Everywhere

/-- A name of a node of which `P` holds. -/
def NameIn (P : Node → Prop) (name : String) : Prop := ∃ node, P node ∧ name ∈ node.names

theorem NameIn.mono {P Q : Node → Prop} {name : String} (h : NameIn P name) (hmono : ∀ node, P node → Q node) :
    NameIn Q name := by
  obtain ⟨node, hnode, hname⟩ := h
  exact ⟨node, hmono node hnode, hname⟩

/-- The names and constants of a node are tokens of C. -/
structure HasTokens (node : Node) : Prop where
  names : ∀ name ∈ node.names, IsName name
  constants : ∀ value ∈ node.constants, IsConstant value

/-- Trees whose names and constants are tokens of C. -/
def OverTokens (node : Node) : Prop := Everywhere HasTokens node

namespace OverTokens

variable {node : Node}

theorem names (h : OverTokens node) : ∀ name ∈ node.names, IsName name := h.self.names

theorem constants (h : OverTokens node) : ∀ value ∈ node.constants, IsConstant value := h.self.constants

theorem parts (h : OverTokens node) : ∀ part ∈ node.parts, OverTokens part := Everywhere.parts h

end OverTokens

/-- Trees in which no jump stands in a comma list or where a loop is initialized. -/
def JumpsInPlace (node : Node) : Prop :=
  Everywhere (fun node => ∀ part ∈ node.headParts, containsJump .both part = false) node

end StubGen.CUnit
