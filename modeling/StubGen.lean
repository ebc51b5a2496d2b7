import StubGen.CommandLine.Workspace
import StubGen.Main
import StubGen.Proofs.Expression.RoundTrip
import StubGen.Proofs.Jump.Binding
import StubGen.Proofs.Loop.Lowering
import StubGen.Proofs.Switch.Lowering
import StubGen.Proofs.Suite.Shape
import StubGen.Proofs.Suite.Writers
import StubGen.Proofs.Emission.Compositional
import StubGen.Proofs.Expression.Forms
import StubGen.Proofs.Suite.Clause
import StubGen.Proofs.Suite.Filled
import StubGen.Proofs.Loop.Integers
import StubGen.Proofs.Loop.Postfix
import StubGen.Proofs.Loop.Range
import StubGen.Proofs.Stub.Closure
import StubGen.Proofs.Stub.Scope
import StubGen.Proofs.Stub.Overload
import StubGen.Proofs.Stub.Naming
import StubGen.Proofs.Dump.Encoding
import StubGen.Proofs.Dump.Reading
import StubGen.Proofs.Layout.NestedCode
import StubGen.Proofs.Name.Casing
import StubGen.Proofs.Stub.Lexical
import StubGen.Proofs.Stub.Nesting
import StubGen.Proofs.Stub.WellNested
import StubGen.Proofs.CommandLine.Atomicity
import StubGen.Proofs.Isolation.Place
import StubGen.Proofs.Isolation.Substitution
import StubGen.Proofs.Layout.FirstUse
import StubGen.Proofs.Layout.Sections
import StubGen.Proofs.Stub.Composition
import StubGen.Proofs.Imports.Stubs
import StubGen.Proofs.Imports.Expressions
import StubGen.Proofs.Imports.Units
import StubGen.Proofs.Imports.Completeness
import StubGen.Proofs.Definition.Names
import StubGen.Proofs.Definition.Enumerators
import StubGen.Proofs.Stub.References
import StubGen.Proofs.Stub.Aliases
import StubGen.Proofs.Branch.Selection
import StubGen.Proofs.Loop.Header
import StubGen.Proofs.Loop.Counter
import StubGen.Proofs.Stub.Unsupported
import StubGen.Proofs.Effect.Purity
import StubGen.Proofs.Loop.Steps
import StubGen.Proofs.Loop.Calls
import StubGen.Proofs.Switch.Discriminant
import StubGen.Proofs.Expression.Entries
import StubGen.Proofs.Effect.StepValue
import StubGen.Proofs.Definition.Numbering
import StubGen.Proofs.Expression.Constant
import StubGen.Proofs.Expression.Display
import StubGen.Proofs.Host.Parentheses
import StubGen.Proofs.Expression.Minimal
import StubGen.Proofs.Definition.Parameters
import StubGen.Proofs.Stub.Quoted
import StubGen.Proofs.Stub.Collision
import StubGen.Proofs.Name.Recasing
import StubGen.Proofs.Name.Spacing
import StubGen.Proofs.Layout.Scheduling
import StubGen.Proofs.Layout.Rendering
import StubGen.Proofs.Pattern.Preferred
import StubGen.Proofs.Pattern.StackPoke
import StubGen.Proofs.Definition.Hints
import StubGen.Proofs.Options.Defaults
