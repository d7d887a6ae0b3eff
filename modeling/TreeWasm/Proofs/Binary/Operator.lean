-- SUMMARY: The operators that this library writes are read back.
import TreeWasm.Proofs.Binary.Type
import TreeWasm.Wasm.Reader.Operator

/-!
# Operators in binaries

Every operator is read from its bytes, given that the depth of a branch fits into 32 bits. The other
arguments always fit.
-/

namespace TreeWasm.Wasm

/-- The depth of a branch, if the operator is one, is an integer of 32 bits. -/
def Operator.Fits : Operator → Prop
  | .branch depth => depth < UInt32.size
  | _ => True

namespace Reads

theorem opening (basic : Option ValType → Operator) (other : BlockType → AnyOperator)
    (result : Option ValType) :
    Reads (Reader.opening basic other) (encodeBlockType result) (.basic (basic result)) :=
  (blockType result).map (.pure _)

/-- A numeric operation has a code that no operator with an argument has. -/
theorem numeric (op : MachineOp) : Reads Reader.operator [op.code] (.basic (.numeric op)) := by
  have hcode : op.code ≠ 0x41 ∧ op.code ≠ 0x44 ∧ op.code ≠ 0x20 ∧ op.code ≠ 0x02 ∧ op.code ≠ 0x04 ∧
      op.code ≠ 0x05 ∧ op.code ≠ 0x0b ∧ op.code ≠ 0x0c ∧ op.code ≠ 0x1a := by
    rcases op with ⟨_ | _, _ | _⟩ | ⟨_ | _, _ | _⟩ <;> decide
  obtain ⟨h41, h44, h20, h02, h04, h05, h0b, h0c, h1a⟩ := hcode
  refine offset_bind fun start => byte_bind ?_
  rw [if_neg h41, if_neg h44, if_neg h20, if_neg h02, if_neg h04, if_neg h05, if_neg h0b,
    if_neg h0c, if_neg h1a, op.ofCode?_code]
  exact .pure _

theorem operator {op : Operator} (h : op.Fits) : Reads Reader.operator op.encode (.basic op) := by
  cases op with
  | constI32 value => exact offset_bind fun start => byte_bind ((s32 value).map (.pure _))
  | constF64 value =>
    have htake : Reads (Reader.take value.bytes.length >>= fun c =>
        pure (.basic (.constF64 (.ofBytes c.rest)))) value.bytes
        (AnyOperator.basic (.constF64 value)) := by
      apply take_map
      intro offset
      rw [Binary64.ofBytes_bytes]
      exact .pure _
    rw [value.length_bytes] at htake
    exact offset_bind fun start => byte_bind htake
  | localGet index =>
    refine offset_bind fun start => byte_bind ((u32 index.toNat_lt).map ?_)
    rw [UInt32.ofNat_toNat]
    exact .pure _
  | block result => exact offset_bind fun start => byte_bind (opening _ _ result)
  | cond result => exact offset_bind fun start => byte_bind (opening _ _ result)
  | alternative => exact offset_bind fun start => byte_bind (.pure _)
  | finish => exact offset_bind fun start => byte_bind (.pure _)
  | branch depth => exact offset_bind fun start => byte_bind ((u32 h).map (.pure _))
  | drop => exact offset_bind fun start => byte_bind (.pure _)
  | numeric op => exact numeric op

end Reads

end TreeWasm.Wasm
