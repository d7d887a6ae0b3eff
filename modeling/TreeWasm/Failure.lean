-- SUMMARY: Failures of code generation, and how each becomes a diagnostic.
import TreeWasm.Diagnostic
import TreeWasm.Tree.ValueType

/-!
# Failures

The shapes in which code generation reports that it cannot go on. `Failure.diagnose` gives each
its message and metadata.
-/

namespace TreeWasm

inductive Failure where
  /-- Something that is referred to does not exist. -/
  | notFound (item context : String)
  /-- A kind of instruction has no code yet. -/
  | notImplemented (kind : String)
  /-- A type is not the one that its place requires. -/
  | typeMismatch (expected found context : String)
  /-- An internal promise is broken. -/
  | unreachable (context : String)
  /-- An operator is not defined for a type. -/
  | unsupported (op : Arith) (type : ValueType)
deriving DecidableEq, Repr, Inhabited

namespace Failure

def kind : Failure → Diagnostic.Kind
  | .notFound .. => .notFound
  | .notImplemented _ => .notImplemented
  | .typeMismatch .. => .typeMismatch
  | .unreachable _ => .unreachable
  | .unsupported .. => .unreachable

def message : Failure → String
  | .notFound item context => "'" ++ item ++ "' not found in " ++ context
  | .notImplemented kind => kind ++ " is not yet implemented"
  | .typeMismatch expected found context =>
    "Type mismatch in " ++ context ++ ": expected " ++ expected ++ ", found " ++ found
  | .unreachable context => context
  | .unsupported op type => op.name ++ " is not defined for " ++ type.name

def stageName : String := "WASM Generation"

def metadata : Failure → Metadata
  | .notFound item _ =>
    { stage := some stageName, label := some item,
      suggestion := some "Only break to a label of an enclosing block" }
  | .notImplemented kind => { stage := some stageName, instructionKind := some kind }
  | .typeMismatch expected found _ =>
    { stage := some stageName, expectedType := some expected, foundType := some found }
  | .unreachable _ => { stage := some stageName }
  | .unsupported op type =>
    { stage := some stageName, instructionKind := some op.name, foundType := some type.name,
      suggestion := some "Arithmetic needs a numeric type and Mod an integer one" }

/-- The diagnostic of a failure. -/
def diagnose (f : Failure) : Diagnostic := ⟨f.kind, f.message, f.metadata⟩

end Failure

end TreeWasm
