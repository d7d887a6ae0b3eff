-- SUMMARY: Instructions of the typed tree language: the expression trees that function bodies consist of.
import TreeWasm.Binary64.Basic
import TreeWasm.Tree.ValueType

/-!
# Instructions

A function body is one tree of instructions. Blocks carry a label, which the breaks inside them
may name. The instructions after `ifElse` belong to the language but have no code yet.
-/

namespace TreeWasm

/-- The kinds of instruction. A break with and without a value, and an if with and without an
alternative, are of one kind. -/
inductive Kind where
  | constInt32
  | constFloat64
  | constBool
  | localGet
  | block
  | binaryOp
  | breakTo
  | cond
  | storeLocal
  | propertyAccess
  | propertyAssignment
  | containerAlloc
  | stackAlloc
  | stackFree
deriving DecidableEq, Repr, Inhabited

namespace Kind

/-- All kinds, in declaration order. -/
def all : List Kind :=
  [.constInt32, .constFloat64, .constBool, .localGet, .block, .binaryOp, .breakTo, .cond,
   .storeLocal, .propertyAccess, .propertyAssignment, .containerAlloc, .stackAlloc, .stackFree]

def name : Kind → String
  | .constInt32 => "ConstInt32"
  | .constFloat64 => "ConstFloat64"
  | .constBool => "ConstBool"
  | .localGet => "LocalGet"
  | .block => "Block"
  | .binaryOp => "BinaryOp"
  | .breakTo => "Break"
  | .cond => "If"
  | .storeLocal => "StoreLocal"
  | .propertyAccess => "PropertyAccess"
  | .propertyAssignment => "PropertyAssignment"
  | .containerAlloc => "ContainerAlloc"
  | .stackAlloc => "StackAlloc"
  | .stackFree => "StackFree"

def ofName? (s : String) : Option Kind := all.find? (·.name == s)

theorem ofName?_name (k : Kind) : ofName? k.name = some k := by
  cases k <;> decide

end Kind

/-- A typed expression tree. -/
inductive Instruction where
  | constInt32 (value : Int32)
  | constFloat64 (value : Binary64)
  | constBool (value : Bool)
  | localGet (index : UInt32) (type : ValueType)
  | block (label : String) (type : ValueType) (children : List Instruction)
  | binaryOp (op : Arith) (type : ValueType) (lhs rhs : Instruction)
  | breakTo (label : String)
  | breakWith (label : String) (value : Instruction)
  | ifThen (condition thenBody : Instruction)
  | ifElse (condition thenBody elseBody : Instruction)
  | storeLocal (index : UInt32) (value : Instruction)
  | propertyAccess (pointer : Instruction) (offset : UInt32) (type : ValueType)
  | propertyAssignment (pointer : Instruction) (offset : UInt32) (value : Instruction)
  | containerAlloc (bytes : UInt32)
  | stackAlloc (amount : UInt32)
  | stackFree (amount : UInt32)
deriving BEq, Repr, Inhabited

namespace Instruction

def kind : Instruction → Kind
  | .constInt32 .. => .constInt32
  | .constFloat64 .. => .constFloat64
  | .constBool .. => .constBool
  | .localGet .. => .localGet
  | .block .. => .block
  | .binaryOp .. => .binaryOp
  | .breakTo .. => .breakTo
  | .breakWith .. => .breakTo
  | .ifThen .. => .cond
  | .ifElse .. => .cond
  | .storeLocal .. => .storeLocal
  | .propertyAccess .. => .propertyAccess
  | .propertyAssignment .. => .propertyAssignment
  | .containerAlloc .. => .containerAlloc
  | .stackAlloc .. => .stackAlloc
  | .stackFree .. => .stackFree

/-- A break whose value may be absent. -/
def breakOptional (label : String) : Option Instruction → Instruction
  | none => .breakTo label
  | some value => .breakWith label value

/-- An if whose alternative may be absent. -/
def ifOptional (condition thenBody : Instruction) : Option Instruction → Instruction
  | none => .ifThen condition thenBody
  | some elseBody => .ifElse condition thenBody elseBody

end Instruction

end TreeWasm
