-- SUMMARY: Addresses of instructions in a tree, and the blocks and ifs around an address.
import TreeWasm.Tree.Instruction

/-!
# Addresses

An address leads from an instruction up to the root of its tree, the last part first. What stands
around an instruction is therefore what its address ends with, and the innermost comes first.
-/

namespace TreeWasm

/-- A part that an instruction has. -/
inductive Part where
  | child (index : Nat)
  | lhs
  | rhs
  | value
  | condition
  | thenBody
  | elseBody
deriving DecidableEq, Repr

/-- The way from an instruction up to the root: which part it is, which part what it is a part of
is, and so on. -/
abbrev Address : Type := List Part

namespace Instruction

/-- A part of an instruction. -/
def part? : Part → Instruction → Option Instruction
  | .child index, .block _ _ children => children[index]?
  | .lhs, .binaryOp _ _ lhs _ => some lhs
  | .rhs, .binaryOp _ _ _ rhs => some rhs
  | .value, .breakWith _ value => some value
  | .condition, .ifThen condition _ => some condition
  | .condition, .ifElse condition _ _ => some condition
  | .thenBody, .ifThen _ thenBody => some thenBody
  | .thenBody, .ifElse _ thenBody _ => some thenBody
  | .elseBody, .ifElse _ _ elseBody => some elseBody
  | _, _ => none

/-- The instruction at an address. -/
def at? (root : Instruction) : Address → Option Instruction
  | [] => some root
  | part :: outer => (root.at? outer).bind (part? part)

/-- The label of a block. -/
def blockLabel? : Instruction → Option String
  | .block label _ _ => some label
  | _ => none

/-- The label that a break names. -/
def breakLabel? : Instruction → Option String
  | .breakTo label => some label
  | .breakWith label _ => some label
  | _ => none

/-- The address of the innermost block around an address that carries a label. -/
def blockAround? (root : Instruction) (label : String) : Address → Option Address
  | [] => none
  | _ :: outer =>
    if (root.at? outer).bind blockLabel? = some label then some outer
    else root.blockAround? label outer

theorem at?_part {root i : Instruction} {here : Address} (h : root.at? here = some i)
    (part : Part) : root.at? (part :: here) = i.part? part := by
  rw [at?, h, Option.bind_some]

theorem blockAround?_part {root i : Instruction} {here : Address} (h : root.at? here = some i)
    (label : String) (part : Part) :
    root.blockAround? label (part :: here) =
      if i.blockLabel? = some label then some here else root.blockAround? label here := by
  rw [blockAround?, h, Option.bind_some]

end Instruction

/-- The part runs inside a frame that its instruction opens: the children of a block do, and the
bodies of an if, but not its condition. -/
def Part.isFramed : Part → Bool
  | .child _ | .thenBody | .elseBody => true
  | .lhs | .rhs | .value | .condition => false

/-- The addresses of the instructions in whose frames an address lies, innermost first. -/
def Address.frames : Address → List Address
  | [] => []
  | part :: outer => if part.isFramed then outer :: frames outer else frames outer

end TreeWasm
