import TreeWasm.Document.Decoding
import TreeWasm.Document.Encoding
import TreeWasm.Document.Generation
import TreeWasm.Generation
import TreeWasm.Registry.Listing
import TreeWasm.Settings.Reading
import TreeWasm.Tree.Listing
import TreeWasm.Proofs.Lowering.Outcome
import TreeWasm.Proofs.Typing.Effect
import TreeWasm.Proofs.Typing.Node
import TreeWasm.Proofs.Validation.Effect
import TreeWasm.Proofs.Machine.Code
import TreeWasm.Proofs.Validation.Soundness
import TreeWasm.Proofs.Assembly.Soundness
import TreeWasm.Proofs.Semantics.Instruction
import TreeWasm.Proofs.Semantics.Node
import TreeWasm.Proofs.Semantics.Lowering
import TreeWasm.Proofs.Semantics.Code
import TreeWasm.Proofs.Semantics.Preservation
import TreeWasm.Proofs.Binary.Reads
import TreeWasm.Proofs.Binary.Sequence
import TreeWasm.Proofs.Binary.Code
import TreeWasm.Proofs.Binary.Image
import TreeWasm.Proofs.Binary.Registry
import TreeWasm.Proofs.Validation.Code
import TreeWasm.Proofs.Validation.Sections
import TreeWasm.Proofs.Validation.Framing
import TreeWasm.Proofs.Validation.Image
import TreeWasm.Proofs.Registry.Assembly
import TreeWasm.Proofs.Generation
import TreeWasm.Proofs.Binary.Operator
import TreeWasm.Proofs.Binary.Module
import TreeWasm.Proofs.Registry.Basic
import TreeWasm.Proofs.Validation.Plain
import TreeWasm.Proofs.Registry.Log
import TreeWasm.Proofs.Assembly.Registrations
import TreeWasm.Proofs.Registry.Emission
import TreeWasm.Proofs.Generation.Refusal
import TreeWasm.Proofs.Registry.Calls
import TreeWasm.Proofs.Generation.Concatenation
import TreeWasm.Proofs.Json.Text
import TreeWasm.Proofs.Json.Number
import TreeWasm.Proofs.Json.Printing
import TreeWasm.Proofs.Json.Reading
import TreeWasm.Proofs.Json.Nesting
import TreeWasm.Proofs.Document.Reading
import TreeWasm.Proofs.Document.RoundTrip
import TreeWasm.Proofs.Lowering.MachineType
import TreeWasm.Proofs.Lowering.Postorder
import TreeWasm.Proofs.Lowering.Faults
import TreeWasm.Proofs.Lowering.Restoration
import TreeWasm.Proofs.Tree.Address
import TreeWasm.Proofs.Machine.Brackets
import TreeWasm.Proofs.Lowering.Targets
import TreeWasm.Proofs.Lowering.OuterFrames
import TreeWasm.Proofs.Lowering.Places
import TreeWasm.Proofs.Lowering.Wrapping
import TreeWasm.Proofs.Lowering.Relabeling
import TreeWasm.Proofs.Assembly.Atomicity
import TreeWasm.Proofs.Validation.Reachability
import TreeWasm.Proofs.Lowering.Divergence
import TreeWasm.Proofs.Binary.Sections
import TreeWasm.Proofs.Generation.Settings
import TreeWasm.Proofs.Validation.Entries
import TreeWasm.Proofs.Generation.Blame
import TreeWasm.Proofs.Text.Lines
import TreeWasm.Proofs.Text.Parentheses
import TreeWasm.Proofs.Decimal.Layout
import TreeWasm.Proofs.Machine.Listing
import TreeWasm.Proofs.Registry.Listing
import TreeWasm.Proofs.Decimal.Shortest
import TreeWasm.Proofs.Machine.Head
import TreeWasm.Proofs.Machine.Reading
import TreeWasm.Proofs.Lowering.Listing
import TreeWasm.Proofs.Binary.LocalRuns
import TreeWasm.Proofs.Lowering.FrameCalls
import TreeWasm.Proofs.Validation.Beginnings
import TreeWasm.Proofs.Generation.Truncation
import TreeWasm.Proofs.Json.Rendering
import TreeWasm.Proofs.Document.Presentation
