-- SUMMARY: The operators that function bodies consist of in a binary, and their bytes.
import TreeWasm.Binary64.Basic
import TreeWasm.Machine.Op
import TreeWasm.Wasm.Leb128

/-!
# Operators

A function body in a binary is a flat sequence of operators. Structured ones open a frame that
`finish` closes. A branch names a frame by the number of frames between them.
-/

namespace TreeWasm.Wasm

inductive Operator where
  | constI32 (value : Int32)
  | constF64 (value : Binary64)
  | localGet (index : UInt32)
  | block (result : Option ValType)
  | cond (result : Option ValType)
  | alternative
  | finish
  | branch (depth : Nat)
  | drop
  | numeric (op : MachineOp)
deriving DecidableEq, Repr, Inhabited

/-- The bytes of a block type. -/
def encodeBlockType : Option ValType → List UInt8
  | none => [0x40]
  | some t => t.encode

/-- The bytes of an operator. -/
def Operator.encode : Operator → List UInt8
  | .constI32 value => 0x41 :: Leb128.signed value.toInt
  | .constF64 value => 0x44 :: value.bytes
  | .localGet index => 0x20 :: Leb128.unsigned index.toNat
  | .block result => 0x02 :: encodeBlockType result
  | .cond result => 0x04 :: encodeBlockType result
  | .alternative => [0x05]
  | .finish => [0x0b]
  | .branch depth => 0x0c :: Leb128.unsigned depth
  | .drop => [0x1a]
  | .numeric op => [op.code]

end TreeWasm.Wasm
