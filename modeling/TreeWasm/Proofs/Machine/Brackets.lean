-- SUMMARY: The operators of every node are properly bracketed.
import TreeWasm.Proofs.Semantics.Code

/-!
# Brackets

Blocks and ifs open a frame in flat code that an end of their own closes, and an alternative stands
directly inside its if. `Bracketed` is the grammar of such code. All code of nodes is of it, that of
nodes made by hand too.
-/

namespace TreeWasm

open Wasm Wasm.Execution

/-- Code in which every frame is closed by its own end. -/
inductive Wasm.Bracketed : List Operator → Prop where
  | nil : Bracketed []
  | flat {op} : isFlat op = true → Bracketed [op]
  | append {code code'} : Bracketed code → Bracketed code' → Bracketed (code ++ code')
  | block {body} (result : Option ValType) :
      Bracketed body → Bracketed (.block result :: (body ++ [.finish]))
  | ifThen {body} (result : Option ValType) :
      Bracketed body → Bracketed (.cond result :: (body ++ [.finish]))
  | ifElse {thenBody elseBody} (result : Option ValType) :
      Bracketed thenBody → Bracketed elseBody →
      Bracketed (.cond result :: (thenBody ++ .alternative :: (elseBody ++ [.finish])))

namespace Node

mutual

theorem bracketed_operators : ∀ n : Node, Bracketed n.operators
  | .constI32 _ | .constF64 _ | .localGet .. | .breakTo .. => .flat rfl
  | .block _ type children => by
    rw [operators_block]
    exact .block type.valType? (bracketed_operatorsAll children)
  | .binary _ lhs rhs => by
    rw [operators_binary]
    exact (bracketed_operators lhs).append ((bracketed_operators rhs).append (.flat rfl))
  | .breakWith _ _ value => by
    rw [operators_breakWith]
    exact (bracketed_operators value).append (.flat rfl)
  | .ifThen type condition thenBody => by
    rw [operators_ifThen]
    exact (bracketed_operators condition).append
      (.ifThen type.valType? (bracketed_operators thenBody))
  | .ifElse type condition thenBody elseBody => by
    rw [operators_ifElse]
    exact (bracketed_operators condition).append
      (.ifElse type.valType? (bracketed_operators thenBody) (bracketed_operators elseBody))
  | .drop value => by
    rw [operators_drop]
    exact (bracketed_operators value).append (.flat rfl)

theorem bracketed_operatorsAll : ∀ ns : List Node, Bracketed (operatorsAll ns)
  | [] => .nil
  | n :: ns => by
    rw [operatorsAll_cons]
    exact (bracketed_operators n).append (bracketed_operatorsAll ns)

end

end Node

end TreeWasm
