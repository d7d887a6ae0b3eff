-- SUMMARY: How value types and operators are represented on the machine.
import TreeWasm.Lowering.Refusal
import TreeWasm.Machine.Op

/-!
# Representations

Booleans, pointers and strings travel as 32-bit words, tagged unions as 64-bit words. `Never` has
no values, and `Nothing` has no representation at all. An operator becomes a machine operation at
a numeric type: integers have all five, floating-point numbers all but the remainder.
-/

namespace TreeWasm

namespace ValueType

/-- The machine type that represents a value type, if one does. -/
def machineType? : ValueType → Option MachineType
  | .int32 | .bool | .ptr | .str => some .word32
  | .int64 | .union => some .word64
  | .float32 => some .float32
  | .float64 => some .float64
  | .never => some .unreachable
  | .nothing => none

def machineType (t : ValueType) : Except Refusal MachineType :=
  match t.machineType? with
  | some m => .ok m
  | none => .error (.unrepresentable t)

/-- The type of a slot that holds a runtime value. `slot` says what the slot is for. -/
def slotType (t : ValueType) (slot : String) : Except Refusal Wasm.ValType := do
  match (← t.machineType).valType? with
  | some v => .ok v
  | none => .error (.valueless t slot)

/-- The value type with an ordinal. -/
def ofOrdinal (n : Nat) : Except Refusal ValueType :=
  match ofOrdinal? n with
  | some t => .ok t
  | none => .error (.typeOrdinal n)

theorem machineType_eq_ok_iff {t : ValueType} {m : MachineType} :
    t.machineType = .ok m ↔ t.machineType? = some m := by
  cases t <;> simp [machineType, machineType?]

theorem machineType_eq_error_iff {t : ValueType} {r : Refusal} :
    t.machineType = .error r ↔ t = .nothing ∧ r = .unrepresentable .nothing := by
  cases t <;> simp [machineType, machineType?, eq_comm]

end ValueType

namespace Arith

/-- The operator on integers. -/
def intOp : Arith → IntOp
  | .add => .add
  | .sub => .sub
  | .mul => .mul
  | .div => .divS
  | .mod => .remS

/-- The operator on floating-point numbers, if there is one. -/
def floatOp? : Arith → Option FloatOp
  | .add => some .add
  | .sub => some .sub
  | .mul => some .mul
  | .div => some .div
  | .mod => none

/-- The machine operation of an operator at a type, if the pair has one. -/
def machineOp? (op : Arith) : ValueType → Option MachineOp
  | .int32 => some (.int .w32 op.intOp)
  | .int64 => some (.int .w64 op.intOp)
  | .float32 => op.floatOp?.map (.float .w32)
  | .float64 => op.floatOp?.map (.float .w64)
  | _ => none

def machineOp (op : Arith) (type : ValueType) : Except Refusal MachineOp :=
  match op.machineOp? type with
  | some m => .ok m
  | none => .error (.unsupported op type)

/-- The operator with an ordinal. -/
def ofOrdinal (n : Nat) : Except Refusal Arith :=
  match ofOrdinal? n with
  | some op => .ok op
  | none => .error (.operatorOrdinal n)

/-- An operation has the machine type of the value type it was selected for. -/
theorem type_of_machineOp? {op : Arith} {t : ValueType} {m : MachineOp}
    (h : op.machineOp? t = some m) : t.machineType? = some m.type := by
  cases t <;> simp [machineOp?] at h
  · subst h; rfl
  · obtain ⟨_, _, rfl⟩ := h; rfl
  · subst h; rfl
  · obtain ⟨_, _, rfl⟩ := h; rfl

end Arith

end TreeWasm
