-- SUMMARY: The machine type of an instruction, read off its tree.
import TreeWasm.Proofs.Lowering.Outcome

/-!
# Machine types of instructions

What an instruction leaves can be told from the tree, without lowering it: literals, slots, blocks
and operators say what they are of, an if with an alternative leaves what one of its bodies leaves,
and everything else leaves nothing. `Instruction.type_of_lowerIn` says that the node of an
instruction is of that type.
-/

namespace TreeWasm

namespace ValueType

/-- The machine type that stands for a value type. `Nothing` has none, and nothing of that type is
ever accepted. -/
def machineTypeD (t : ValueType) : MachineType := t.machineType?.getD .unreachable

theorem machineTypeD_of_machineType {t : ValueType} {m : MachineType} (h : t.machineType = .ok m) :
    t.machineTypeD = m := by
  simp [machineTypeD, machineType_eq_ok_iff.1 h]

end ValueType

theorem Arith.machineOp_eq_ok_iff {op : Arith} {type : ValueType} {m : MachineOp} :
    op.machineOp type = .ok m ↔ op.machineOp? type = some m := by
  unfold machineOp
  cases op.machineOp? type <;> simp

namespace Instruction

/-- The machine type of what an instruction leaves. -/
def machineType : Instruction → MachineType
  | .constInt32 _ | .constBool _ => .word32
  | .constFloat64 _ => .float64
  | .localGet _ type | .block _ type _ | .binaryOp _ type _ _ => type.machineTypeD
  | .ifElse _ thenBody elseBody =>
    if thenBody.machineType = .unreachable then elseBody.machineType else thenBody.machineType
  | .breakTo _ | .breakWith .. | .ifThen .. => .unreachable
  | .storeLocal .. | .propertyAccess .. | .propertyAssignment .. | .containerAlloc _
  | .stackAlloc _ | .stackFree _ => .unreachable

end Instruction

theorem Lowering.joinType_eq (s t : MachineType) :
    joinType s t = if s = .unreachable then t else s := by
  cases s <;> rfl

/-- The node of an instruction is of the type that the tree tells. -/
theorem Instruction.type_of_lowerIn {frames : FrameStack} {n : Node} (i : Instruction)
    (h : i.lowerIn frames = .ok n) : n.type = i.machineType := by
  cases i with
  | constInt32 | constFloat64 | constBool =>
    cases h
    rfl
  | localGet =>
    obtain ⟨m, hm, rfl⟩ := lowerIn_localGet_iff.1 h
    exact (ValueType.machineTypeD_of_machineType hm).symm
  | block =>
    obtain ⟨m, hm, ns, -, rfl⟩ := lowerIn_block_iff.1 h
    exact (ValueType.machineTypeD_of_machineType hm).symm
  | binaryOp op type =>
    obtain ⟨l, -, r, -, m, hop, rfl⟩ := lowerIn_binaryOp_iff.1 h
    have ht := Arith.type_of_machineOp? (Arith.machineOp_eq_ok_iff.1 hop)
    simp [Node.type, machineType, ValueType.machineTypeD, ht]
  | breakTo =>
    obtain ⟨d, -, rfl⟩ := lowerIn_breakTo_iff.1 h
    rfl
  | breakWith =>
    obtain ⟨v, -, d, -, rfl⟩ := lowerIn_breakWith_iff.1 h
    rfl
  | ifThen =>
    obtain ⟨c, -, -, t, -, rfl⟩ := lowerIn_ifThen_iff.1 h
    rfl
  | ifElse condition thenBody elseBody =>
    obtain ⟨c, -, -, t, ht, e, he, rfl⟩ := lowerIn_ifElse_iff.1 h
    have htype := type_of_lowerIn thenBody ht
    have hetype := type_of_lowerIn elseBody he
    show Lowering.joinType t.type e.type = _
    simp only [Lowering.joinType_eq, machineType, htype, hetype]
  | storeLocal | propertyAccess | propertyAssignment | containerAlloc | stackAlloc | stackFree =>
    cases h

end TreeWasm
