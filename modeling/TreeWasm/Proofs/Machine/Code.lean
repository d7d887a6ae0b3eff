-- SUMMARY: The operators of a machine node in terms of those of its parts.
import TreeWasm.Machine.Code

/-!
# Operators of nodes

One equation for each kind of node. Code is written in front of what comes after it, so each of them
moves that to the end.
-/

namespace TreeWasm.Node

@[simp] theorem operators_constI32 (value : Int32) :
    (constI32 value).operators = [.constI32 value] := rfl

@[simp] theorem operators_constF64 (value : Binary64) :
    (constF64 value).operators = [.constF64 value] := rfl

@[simp] theorem operators_localGet (index : UInt32) (type : MachineType) :
    (localGet index type).operators = [.localGet index] := rfl

theorem operators_block (label : String) (type : MachineType) (children : List Node) :
    (block label type children).operators =
      .block type.valType? :: (operatorsAll children ++ [.finish]) := by
  rw [← operatorsAllThen_eq]
  rfl

theorem operators_binary (op : MachineOp) (lhs rhs : Node) :
    (binary op lhs rhs).operators = lhs.operators ++ (rhs.operators ++ [.numeric op]) := by
  rw [← operatorsThen_eq, ← operatorsThen_eq]
  rfl

@[simp] theorem operators_breakTo (label : String) (depth : Nat) :
    (breakTo label depth).operators = [.branch depth] := rfl

theorem operators_breakWith (label : String) (depth : Nat) (value : Node) :
    (breakWith label depth value).operators = value.operators ++ [.branch depth] := by
  rw [← operatorsThen_eq]
  rfl

theorem operators_ifThen (type : MachineType) (condition thenBody : Node) :
    (ifThen type condition thenBody).operators =
      condition.operators ++ .cond type.valType? :: (thenBody.operators ++ [.finish]) := by
  rw [← operatorsThen_eq, ← operatorsThen_eq]
  rfl

theorem operators_ifElse (type : MachineType) (condition thenBody elseBody : Node) :
    (ifElse type condition thenBody elseBody).operators =
      condition.operators ++ .cond type.valType? :: (thenBody.operators ++
        .alternative :: (elseBody.operators ++ [.finish])) := by
  rw [← operatorsThen_eq, ← operatorsThen_eq, ← operatorsThen_eq]
  rfl

theorem operators_drop (value : Node) : (drop value).operators = value.operators ++ [.drop] := by
  rw [← operatorsThen_eq]
  rfl

@[simp] theorem operatorsAll_nil : operatorsAll [] = [] := rfl

theorem operatorsAll_cons (node : Node) (nodes : List Node) :
    operatorsAll (node :: nodes) = node.operators ++ operatorsAll nodes := by
  rw [← operatorsThen_eq]
  rfl

end TreeWasm.Node
