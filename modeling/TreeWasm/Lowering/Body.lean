-- SUMMARY: Lowering of instruction trees to machine nodes under a stack of open frames.
import TreeWasm.Lowering.Frames
import TreeWasm.Lowering.Representation
import TreeWasm.Machine.Node

/-!
# Lowering

`Instruction.lower` walks a tree once, the parts of an instruction before the instruction itself
and in the order in which they are declared, and stops at the first refusal. Entering a block or
the bodies of an if opens a frame, and leaving it closes the frame again, whatever happened inside
(`within`).

An if without an alternative leaves no value: the value of its body is dropped. The machine type
of an if with an alternative is that of its first body, or of the second where the first leaves
no value.
-/

namespace TreeWasm

/-- Computations that keep a stack of open frames and may refuse. The frames outlive a refusal. -/
abbrev Lowering (α : Type) : Type := ExceptT Refusal (StateM FrameStack) α

namespace Lowering

/-- Run a computation on a stack. Gives back the outcome and the frames that are open after it. -/
def on (c : Lowering α) (frames : FrameStack) : Except Refusal α × FrameStack := c frames

/-- Run a computation inside a frame of its own. -/
def within (kind : Frame.Kind) (body : Lowering α) : Lowering α := fun frames =>
  let (outcome, inner) := body (frames.enter kind)
  match inner.exit with
  | .ok (_, outer) => (outcome, outer)
  | .error refusal => (.error refusal, inner)

/-- The number of frames between here and the block with a label. Lowering opens a frame for each
level of a tree that it descends, so that there are never more of them than 32 bits can count. -/
def resolve (label : String) : Lowering Nat := do
  let frames ← get
  frames.distance label

/-- The value a body leaves has nowhere to go, so it is dropped. -/
def discard (body : Node) : Node :=
  match body.type.valType? with
  | some _ => .drop body
  | none => body

/-- The type of an if with two bodies of the given types. -/
def joinType : MachineType → MachineType → MachineType
  | .unreachable, elseType => elseType
  | thenType, _ => thenType

/-- Only a word can decide an if. A condition without a value is let through. -/
def checkCondition : MachineType → Except Refusal Unit
  | .word32 | .unreachable => .ok ()
  | found => .error (.condition found)

end Lowering

namespace Instruction

open Lowering

mutual

/-- The machine node of an instruction. -/
def lower : Instruction → Lowering Node
  | .constInt32 value => pure (.constI32 value)
  | .constFloat64 value => pure (.constF64 value)
  | .constBool value => pure (.constI32 (if value then 1 else 0))
  | .localGet index type => do
    return .localGet index (← type.machineType)
  | .block label type children => do
    let machineType ← type.machineType
    let children ← within (.block label) (lowerAll children)
    return .block label machineType children
  | .binaryOp op type lhs rhs => do
    let lhs ← lower lhs
    let rhs ← lower rhs
    return .binary (← op.machineOp type) lhs rhs
  | .breakTo label => do
    return .breakTo label (← resolve label)
  | .breakWith label value => do
    let value ← lower value
    return .breakWith label (← resolve label) value
  | .ifThen condition thenBody => do
    let condition ← lower condition
    checkCondition condition.type
    let thenBody ← within .cond (lower thenBody)
    return .ifThen .unreachable condition (discard thenBody)
  | .ifElse condition thenBody elseBody => do
    let condition ← lower condition
    checkCondition condition.type
    let (thenBody, elseBody) ← within .cond do
      let thenBody ← lower thenBody
      let elseBody ← lower elseBody
      return (thenBody, elseBody)
    return .ifElse (joinType thenBody.type elseBody.type) condition thenBody elseBody
  | .storeLocal .. => throw (.codeless .storeLocal)
  | .propertyAccess .. => throw (.codeless .propertyAccess)
  | .propertyAssignment .. => throw (.codeless .propertyAssignment)
  | .containerAlloc _ => throw (.codeless .containerAlloc)
  | .stackAlloc _ => throw (.codeless .stackAlloc)
  | .stackFree _ => throw (.codeless .stackFree)

/-- The machine nodes of a sequence of instructions. -/
def lowerAll : List Instruction → Lowering (List Node)
  | [] => pure []
  | i :: is => do
    let node ← lower i
    let nodes ← lowerAll is
    return node :: nodes

end

/-- The machine node of a whole function body, or of any other tree with no frames around it. -/
def lowerRoot (i : Instruction) : Except Refusal Node := (i.lower.on {}).1

end Instruction

end TreeWasm
