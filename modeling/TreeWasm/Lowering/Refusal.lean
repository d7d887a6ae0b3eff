-- SUMMARY: The reasons for which a program is refused code.
import TreeWasm.Failure
import TreeWasm.Machine.Type
import TreeWasm.Tree.Instruction

/-!
# Refusals

Why a type, an instruction or a function gets no code. A refusal names its cause; the words of
its report are those of the failure it amounts to (`Refusal.failure`).
-/

namespace TreeWasm

inductive Refusal where
  /-- No value type has this ordinal. -/
  | typeOrdinal (ordinal : Nat)
  /-- No operator has this ordinal. -/
  | operatorOrdinal (ordinal : Nat)
  /-- The type has no machine representation. -/
  | unrepresentable (type : ValueType)
  /-- The type has no runtime values, and a slot needs one. -/
  | valueless (type : ValueType) (slot : String)
  /-- The operator is not defined for the type. -/
  | unsupported (op : Arith) (type : ValueType)
  /-- No enclosing block has the label. -/
  | unknownLabel (label : String) (enclosing : UInt32)
  /-- The condition of an if is of a type that cannot decide it. -/
  | condition (found : MachineType)
  /-- The kind of instruction has no code. -/
  | codeless (kind : Kind)
  /-- A frame was closed when none was open. -/
  | noOpenFrame
  /-- Frames were still open at the end of a function body. -/
  | framesLeftOpen
deriving DecidableEq, Repr, Inhabited

namespace Refusal

/-- The report of a refusal. -/
def failure : Refusal → Failure
  | .typeOrdinal n =>
    .typeMismatch "a value type ordinal between 0 and 9" (toString n) "value type decoding"
  | .operatorOrdinal n => .unreachable ("unknown math operator ordinal " ++ toString n)
  | .unrepresentable type =>
    .typeMismatch "a value type with a machine representation" type.name "type mapping"
  | .valueless type slot => .typeMismatch "a runtime value type" type.name slot
  | .unsupported op type => .unsupported op type
  | .unknownLabel label enclosing =>
    .notFound label ("the " ++ toString enclosing.toNat ++ " enclosing block(s) of a break")
  | .condition found => .typeMismatch MachineType.word32.name found.name "if condition"
  | .codeless kind => .notImplemented kind.name
  | .noOpenFrame => .unreachable "attempted to exit a block when no blocks are active"
  | .framesLeftOpen =>
    .unreachable "control flow frames left open after lowering a function body"

/-- The diagnostic of a refusal, with no function named. -/
def diagnose (r : Refusal) : Diagnostic := r.failure.diagnose

end Refusal

end TreeWasm
