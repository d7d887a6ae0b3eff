-- SUMMARY: Diagnostics: the kind, message and metadata with which a request fails.

/-!
# Diagnostics

A request that fails surfaces one diagnostic: a kind, a message for people, and metadata for
tools. Metadata holds at most one text per key; setting a key again replaces its text.
-/

namespace TreeWasm

namespace Diagnostic

inductive Kind where
  | notFound
  | notImplemented
  | typeMismatch
  | unreachable
  | config
deriving DecidableEq, Repr, Inhabited

inductive Key where
  | stage
  | functionName
  | instructionKind
  | label
  | suggestion
  | expectedType
  | foundType
deriving DecidableEq, Repr, Inhabited

/-- The heading under which diagnostics of a kind are shown. -/
def Kind.text : Kind → String
  | .notFound => "Expected function or field not found"
  | .notImplemented => "An operation is not implemented"
  | .typeMismatch => "Type mismatch occurred in instruction"
  | .unreachable => "This should not be reached"
  | .config => "Malformed Config"

end Diagnostic

structure Metadata where
  stage : Option String := none
  functionName : Option String := none
  instructionKind : Option String := none
  label : Option String := none
  suggestion : Option String := none
  expectedType : Option String := none
  foundType : Option String := none
deriving DecidableEq, Repr, Inhabited

namespace Metadata

open Diagnostic (Key)

def get? (m : Metadata) : Key → Option String
  | .stage => m.stage
  | .functionName => m.functionName
  | .instructionKind => m.instructionKind
  | .label => m.label
  | .suggestion => m.suggestion
  | .expectedType => m.expectedType
  | .foundType => m.foundType

def set (m : Metadata) (key : Key) (text : String) : Metadata :=
  match key with
  | .stage => { m with stage := some text }
  | .functionName => { m with functionName := some text }
  | .instructionKind => { m with instructionKind := some text }
  | .label => { m with label := some text }
  | .suggestion => { m with suggestion := some text }
  | .expectedType => { m with expectedType := some text }
  | .foundType => { m with foundType := some text }

end Metadata

structure Diagnostic where
  kind : Diagnostic.Kind
  message : String
  metadata : Metadata := {}
deriving DecidableEq, Repr, Inhabited

namespace Diagnostic

/-- The diagnostic with a metadata text set. -/
def withEntry (d : Diagnostic) (key : Key) (text : String) : Diagnostic :=
  { d with metadata := d.metadata.set key text }

/-- The line shown to people: heading, message, and the function if it is known. -/
def render (d : Diagnostic) : String :=
  d.kind.text ++ ": " ++ d.message ++
    match d.metadata.functionName with
    | some name => " (in function '" ++ name ++ "')"
    | none => ""

end Diagnostic

end TreeWasm
