-- SUMMARY: Lowering and flattening together read a tree in postorder.
import TreeWasm.Proofs.Lowering.MachineType
import TreeWasm.Proofs.Machine.Code
import TreeWasm.Proofs.Typing.Effect

/-!
# Postorder

The code of an accepted tree can be read off the tree in one pass: the parts of an instruction in
order, then the instruction itself, or what opens and closes it around its parts
(`Instruction.reading`). Machine nodes, which stand between the two, leave no trace in it. What
cannot be read off locally is how deep a branch has to reach, so the reading leaves that open.
-/

namespace TreeWasm

open Wasm

/-- The operator with the depth left open, if it is a branch. -/
def Wasm.Operator.withoutDepth : Operator → Operator
  | .branch _ => .branch 0
  | op => op

namespace Instruction

mutual

/-- The operators of an instruction in postorder, with the depths of branches left open. A value
that the body of an if leaves where nothing is due is dropped on the spot. -/
def reading : Instruction → List Operator
  | .constInt32 value => [.constI32 value]
  | .constFloat64 value => [.constF64 value]
  | .constBool value => [.constI32 (if value then 1 else 0)]
  | .localGet index _ => [.localGet index]
  | .block _ type children => .block type.valType? :: readingAll children ++ [.finish]
  | .binaryOp op type lhs rhs =>
    reading lhs ++ reading rhs ++ (op.machineOp? type).toList.map .numeric
  | .breakTo _ => [.branch 0]
  | .breakWith _ value => reading value ++ [.branch 0]
  | .ifThen condition thenBody =>
    reading condition ++ .cond none :: reading thenBody ++
      (if thenBody.machineType = .unreachable then [] else [.drop]) ++ [.finish]
  | .ifElse condition thenBody elseBody =>
    let type := if thenBody.machineType = .unreachable then elseBody.machineType
      else thenBody.machineType
    reading condition ++ .cond type.valType? :: reading thenBody ++
      .alternative :: reading elseBody ++ [.finish]
  | .storeLocal .. | .propertyAccess .. | .propertyAssignment .. | .containerAlloc _
  | .stackAlloc _ | .stackFree _ => []

/-- The operators of instructions in sequence. -/
def readingAll : List Instruction → List Operator
  | [] => []
  | i :: is => reading i ++ readingAll is

end

end Instruction

/-! ## Nodes -/

/-- Dropping what a body leaves adds one operator, unless the body leaves nothing. -/
theorem Lowering.operators_discard (body : Node) :
    (discard body).operators =
      body.operators ++ if body.type = .unreachable then [] else [.drop] := by
  unfold discard
  cases h : body.type <;> simp [MachineType.valType?, Node.operators_drop]

namespace Instruction

mutual

/-- The node of an instruction is flattened to what is read off the instruction. -/
theorem operators_lowerIn (i : Instruction) {frames : FrameStack} {n : Node}
    (h : i.lowerIn frames = .ok n) : n.operators.map Operator.withoutDepth = i.reading := by
  cases i with
  | constInt32 | constFloat64 | constBool =>
    cases h
    rfl
  | localGet =>
    obtain ⟨m, -, rfl⟩ := lowerIn_localGet_iff.1 h
    rfl
  | block label type children =>
    obtain ⟨m, hm, ns, hns, rfl⟩ := lowerIn_block_iff.1 h
    simp [Node.operators_block, Operator.withoutDepth, reading,
      operatorsAll_lowerAllIn children hns, ValueType.valType?_of_machineType hm]
  | binaryOp op type lhs rhs =>
    obtain ⟨l, hl, r, hr, m, hop, rfl⟩ := lowerIn_binaryOp_iff.1 h
    simp [Node.operators_binary, Operator.withoutDepth, reading, operators_lowerIn lhs hl,
      operators_lowerIn rhs hr, Arith.machineOp_eq_ok_iff.1 hop]
  | breakTo label =>
    obtain ⟨d, -, rfl⟩ := lowerIn_breakTo_iff.1 h
    rfl
  | breakWith label value =>
    obtain ⟨v, hv, d, -, rfl⟩ := lowerIn_breakWith_iff.1 h
    simp [Node.operators_breakWith, Operator.withoutDepth, reading, operators_lowerIn value hv]
  | ifThen condition thenBody =>
    obtain ⟨c, hc, -, t, ht, rfl⟩ := lowerIn_ifThen_iff.1 h
    have htype := thenBody.type_of_lowerIn ht
    have hdrop : (if t.type = .unreachable then [] else [Operator.drop]).map Operator.withoutDepth =
        if thenBody.machineType = .unreachable then [] else [.drop] := by
      rw [htype]
      split <;> rfl
    simp [Node.operators_ifThen, Lowering.operators_discard, Operator.withoutDepth, reading,
      operators_lowerIn condition hc, operators_lowerIn thenBody ht, hdrop, MachineType.valType?]
  | ifElse condition thenBody elseBody =>
    obtain ⟨c, hc, -, t, ht, e, he, rfl⟩ := lowerIn_ifElse_iff.1 h
    simp [Node.operators_ifElse, Lowering.joinType_eq, Operator.withoutDepth, reading,
      operators_lowerIn condition hc, operators_lowerIn thenBody ht, operators_lowerIn elseBody he,
      thenBody.type_of_lowerIn ht, elseBody.type_of_lowerIn he]
  | storeLocal | propertyAccess | propertyAssignment | containerAlloc | stackAlloc | stackFree =>
    cases h

theorem operatorsAll_lowerAllIn (is : List Instruction) {frames : FrameStack} {ns : List Node}
    (h : lowerAllIn frames is = .ok ns) :
    (Node.operatorsAll ns).map Operator.withoutDepth = readingAll is := by
  cases is with
  | nil =>
    cases h
    rfl
  | cons i is =>
    obtain ⟨n, hn, ns', hns, rfl⟩ := lowerAllIn_cons_iff.1 h
    simp [Node.operatorsAll_cons, readingAll, operators_lowerIn i hn,
      operatorsAll_lowerAllIn is hns]

end

/-- The machine node of an accepted tree is of the type that the tree tells, and its operators are
those of the tree in postorder, up to the depths of branches. -/
theorem lowerRoot_postorder {i : Instruction} {n : Node} (h : i.lowerRoot = .ok n) :
    n.type = i.machineType ∧ n.operators.map Operator.withoutDepth = i.reading :=
  ⟨i.type_of_lowerIn h, i.operators_lowerIn h⟩

/-- A tree that is not well typed: the block ends with a number of another type than its own. -/
def mixed : Instruction :=
  .block "out" .int32
    [.ifThen (.constBool true)
      (.binaryOp .add .int32 (.constInt32 1) (.breakWith "out" (.constInt32 2))),
     .ifElse (.localGet 0 .bool) (.breakTo "out") (.localGet 1 .float64)]

/-- What the first if leaves is dropped, and the second if has the type of its second body. -/
theorem mixed_postorder :
    ∃ n, mixed.lowerRoot = .ok n ∧ n.type = .word32 ∧ n.operators.map Operator.withoutDepth =
      [.block (some .i32), .constI32 1, .cond none, .constI32 1, .constI32 2, .branch 0,
       .numeric (.int .w32 .add), .drop, .finish, .localGet 0, .cond (some .f64), .branch 0,
       .alternative, .localGet 1, .finish, .finish] := by
  obtain ⟨n, hn⟩ : ∃ n, mixed.lowerRoot = .ok n := ⟨_, rfl⟩
  exact ⟨n, hn, lowerRoot_postorder hn⟩

end Instruction

end TreeWasm
