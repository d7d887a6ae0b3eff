-- SUMMARY: Evaluation of instruction trees, from left to right.
import TreeWasm.Proofs.Semantics.Outcome
import TreeWasm.Proofs.Typing.Effect

/-!
# Evaluation of instructions

What an instruction means, whatever it is compiled to. A break leaves the innermost block around it
that carries its label, and its value becomes that of the block. Blocks of type `Never` discard the
value, and so does an if without an alternative.

Instructions that have no code fail, as does anything that misses an operand.
-/

namespace TreeWasm

/-- What a block of the type makes of the value that it ends with. -/
def ValueType.keep (type : ValueType) (v : Option Value) : Option Value :=
  if type = .never then none else v

/-- A block ends where it is left for its label. -/
def Outcome.catchLabel (label : String) (type : ValueType) : Outcome String → Outcome String
  | ends v => ends (type.keep v)
  | leaves target v => if target = label then ends (type.keep v) else leaves target v
  | traps => traps
  | fails => fails

namespace Instruction

variable (A : Arithmetic) (slots : List Value)

mutual

/-- Evaluate an instruction. Slots keep their values throughout. -/
def eval : Instruction → Outcome String
  | .constInt32 value => .ends (some (.i32 value))
  | .constFloat64 value => .ends (some (.f64 value))
  | .constBool value => .ends (some (.i32 (if value then 1 else 0)))
  | .localGet index _ => .ofSlot slots index
  | .block label type children => (evalAll children).catchLabel label type
  | .binaryOp op type lhs rhs =>
    match type.valType? with
    | some t => (eval lhs).andThen fun a => (eval rhs).andThen fun b => .ofOperator A op t a b
    | none => .fails
  | .breakTo label => .leaves label none
  | .breakWith label value => (eval value).andThen (.leaves label)
  | .ifThen condition thenBody =>
    (eval condition).andThen (.choose (eval thenBody).forget (.ends none))
  | .ifElse condition thenBody elseBody =>
    (eval condition).andThen (.choose (eval thenBody) (eval elseBody))
  | .storeLocal .. | .propertyAccess .. | .propertyAssignment .. | .containerAlloc _
  | .stackAlloc _ | .stackFree _ => .fails

/-- Evaluate instructions in order. What is left is what the last one leaves. -/
def evalAll : List Instruction → Outcome String
  | [] => .ends none
  | [i] => eval i
  | i :: next :: is => (eval i).andThen fun _ => evalAll (next :: is)

end

end Instruction

end TreeWasm
