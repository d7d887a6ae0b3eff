-- SUMMARY: Machine nodes: trees whose types, operations and branch depths are settled.
import TreeWasm.Binary64.Basic
import TreeWasm.Machine.Op

/-!
# Machine nodes

The trees that lowering produces. Types are machine types, operators are concrete operations, and
a break knows how many enclosing blocks and ifs lie between it and its target. Nodes can also be
made by hand; then nothing says that they fit together.
-/

namespace TreeWasm

inductive Node where
  | constI32 (value : Int32)
  | constF64 (value : Binary64)
  | localGet (index : UInt32) (type : MachineType)
  | block (label : String) (type : MachineType) (children : List Node)
  | binary (op : MachineOp) (lhs rhs : Node)
  | breakTo (label : String) (depth : Nat)
  | breakWith (label : String) (depth : Nat) (value : Node)
  | ifThen (type : MachineType) (condition thenBody : Node)
  | ifElse (type : MachineType) (condition thenBody elseBody : Node)
  /-- Evaluates its operand and discards the value. -/
  | drop (value : Node)
deriving BEq, Repr, Inhabited

namespace Node

/-- The type of the value a node leaves. -/
def type : Node → MachineType
  | .constI32 _ => .word32
  | .constF64 _ => .float64
  | .localGet _ type => type
  | .block _ type _ => type
  | .binary op _ _ => op.type
  | .breakTo .. => .unreachable
  | .breakWith .. => .unreachable
  | .ifThen type _ _ => type
  | .ifElse type _ _ _ => type
  | .drop _ => .unreachable

end Node

end TreeWasm
