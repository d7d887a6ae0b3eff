-- SUMMARY: The operators of a machine node, in stack order.
import TreeWasm.Machine.Node
import TreeWasm.Wasm.Image

/-!
# Code of machine nodes

A node becomes the operators of its parts followed by its own, structured nodes being closed by
`finish`. `operatorsThen` writes them in front of the operators that come after the node, so that
a deep tree is written in one pass; `operatorsThen_eq` says that nothing else depends on what
comes after.
-/

namespace TreeWasm

namespace Node

mutual

/-- The operators of a node in front of `rest`. -/
def operatorsThen : Node → List Wasm.Operator → List Wasm.Operator
  | .constI32 value, rest => .constI32 value :: rest
  | .constF64 value, rest => .constF64 value :: rest
  | .localGet index _, rest => .localGet index :: rest
  | .block _ type children, rest =>
    .block type.valType? :: operatorsAllThen children (.finish :: rest)
  | .binary op lhs rhs, rest => operatorsThen lhs (operatorsThen rhs (.numeric op :: rest))
  | .breakTo _ depth, rest => .branch depth :: rest
  | .breakWith _ depth value, rest => operatorsThen value (.branch depth :: rest)
  | .ifThen type condition thenBody, rest =>
    operatorsThen condition (.cond type.valType? :: operatorsThen thenBody (.finish :: rest))
  | .ifElse type condition thenBody elseBody, rest =>
    operatorsThen condition (.cond type.valType? :: operatorsThen thenBody
      (.alternative :: operatorsThen elseBody (.finish :: rest)))
  | .drop value, rest => operatorsThen value (.drop :: rest)

/-- The operators of a sequence of nodes in front of `rest`. -/
def operatorsAllThen : List Node → List Wasm.Operator → List Wasm.Operator
  | [], rest => rest
  | node :: nodes, rest => operatorsThen node (operatorsAllThen nodes rest)

end

/-- The operators of a node. -/
def operators (node : Node) : List Wasm.Operator := node.operatorsThen []

/-- The operators of a sequence of nodes. -/
def operatorsAll (nodes : List Node) : List Wasm.Operator := operatorsAllThen nodes []

mutual

theorem operatorsThen_append (xs rest : List Wasm.Operator) :
    ∀ node : Node, node.operatorsThen (xs ++ rest) = node.operatorsThen xs ++ rest
  | .constI32 _ | .constF64 _ | .localGet .. | .breakTo .. => by simp [operatorsThen]
  | .block _ _ children => by
    simp [operatorsThen, ← operatorsAllThen_append _ rest children]
  | .binary _ lhs rhs => by
    simp [operatorsThen, ← operatorsThen_append _ rest lhs, ← operatorsThen_append _ rest rhs]
  | .breakWith _ _ value => by simp [operatorsThen, ← operatorsThen_append _ rest value]
  | .ifThen _ condition thenBody => by
    simp [operatorsThen, ← operatorsThen_append _ rest condition,
      ← operatorsThen_append _ rest thenBody]
  | .ifElse _ condition thenBody elseBody => by
    simp [operatorsThen, ← operatorsThen_append _ rest condition,
      ← operatorsThen_append _ rest thenBody, ← operatorsThen_append _ rest elseBody]
  | .drop value => by simp [operatorsThen, ← operatorsThen_append _ rest value]

theorem operatorsAllThen_append (xs rest : List Wasm.Operator) :
    ∀ nodes : List Node, operatorsAllThen nodes (xs ++ rest) = operatorsAllThen nodes xs ++ rest
  | [] => rfl
  | node :: nodes => by
    simp [operatorsAllThen, operatorsAllThen_append xs rest nodes,
      operatorsThen_append (operatorsAllThen nodes xs) rest node]

end

theorem operatorsThen_eq (node : Node) (rest : List Wasm.Operator) :
    node.operatorsThen rest = node.operators ++ rest :=
  operatorsThen_append [] rest node

theorem operatorsAllThen_eq (nodes : List Node) (rest : List Wasm.Operator) :
    operatorsAllThen nodes rest = operatorsAll nodes ++ rest :=
  operatorsAllThen_append [] rest nodes

/-- The code of a function with the given local slots and body. -/
def code (locals : List Wasm.ValType) (body : Node) : Wasm.Code :=
  ⟨Wasm.LocalRun.group locals, body.operators⟩

end Node

end TreeWasm
