-- SUMMARY: What the parts of a program's document look like: the fields of its records and the values they hold.
import TreeWasm.Document.Fault
import TreeWasm.Tree.Program

/-!
# Schema of documents

A document is made of records, whose fields have names and an order, of variants of the three
closed sets, and of plain values. `Shape` says what a place calls for, `Part` is what was found
there, and `Record.build` puts the parts of a record together.
-/

namespace TreeWasm.Document

/-- The records of a document. -/
inductive Record where
  | module
  | function
  /-- The fields of an instruction of a kind. -/
  | instruction (kind : Kind)
deriving DecidableEq, Repr, Inhabited

/-- What a place in a document calls for. -/
inductive Shape where
  | flag
  | int32
  | float64
  | word
  | text
  | valueType
  | operator
  | instruction
  /-- An instruction or null. -/
  | optionalInstruction
  | list (element : Shape)
  | record (record : Record)
deriving DecidableEq, Repr, Inhabited

/-- What a place in a document holds. -/
inductive Part where
  | flag (value : Bool)
  | int32 (value : Int32)
  | float64 (value : Binary64)
  | word (value : UInt32)
  | text (value : String)
  | valueType (value : ValueType)
  | operator (value : Arith)
  | instruction (value : Instruction)
  | absent
  | list (parts : List Part)
  | function (value : Function)
  | module (value : Module)
deriving Repr, Inhabited

/-- A field of a record. A field with a default may be left out. -/
structure Field where
  name : String
  shape : Shape
  default? : Option Part := none
deriving Repr, Inhabited

/-! ## Records -/

/-- The fields of an instruction of a kind. Constants have none: they hold a plain value. -/
def instructionFields : Kind → List Field
  | .constInt32 | .constFloat64 | .constBool => []
  | .localGet => [⟨"index", .word, none⟩, ⟨"value_type", .valueType, none⟩]
  | .block =>
    [⟨"label", .text, none⟩, ⟨"value_type", .valueType, none⟩,
     ⟨"children", .list .instruction, none⟩]
  | .binaryOp =>
    [⟨"op", .operator, none⟩, ⟨"value_type", .valueType, none⟩, ⟨"lhs", .instruction, none⟩,
     ⟨"rhs", .instruction, none⟩]
  | .breakTo => [⟨"label", .text, none⟩, ⟨"value", .optionalInstruction, some .absent⟩]
  | .cond =>
    [⟨"condition", .instruction, none⟩, ⟨"then_body", .instruction, none⟩,
     ⟨"else_body", .optionalInstruction, some .absent⟩]
  | .storeLocal => [⟨"index", .word, none⟩, ⟨"value", .instruction, none⟩]
  | .propertyAccess =>
    [⟨"pointer", .instruction, none⟩, ⟨"offset", .word, none⟩, ⟨"value_type", .valueType, none⟩]
  | .propertyAssignment =>
    [⟨"pointer", .instruction, none⟩, ⟨"offset", .word, none⟩, ⟨"value", .instruction, none⟩]
  | .containerAlloc => [⟨"bytes", .word, none⟩]
  | .stackAlloc => [⟨"amount", .word, none⟩]
  | .stackFree => [⟨"amount", .word, none⟩]

/-- The fields of a record, in order. -/
def Record.fields : Record → List Field
  | .module => [⟨"name", .text, none⟩, ⟨"functions", .list (.record .function), none⟩]
  | .function =>
    [⟨"name", .text, none⟩, ⟨"params", .list .valueType, none⟩,
     ⟨"return_type", .valueType, none⟩, ⟨"locals", .list .valueType, some (.list [])⟩,
     ⟨"body", .instruction, none⟩]
  | .instruction kind => instructionFields kind

def Record.title : Record → String
  | .module => "struct Module"
  | .function => "struct Function"
  | .instruction kind => "struct variant Instruction::" ++ kind.name

/-- A record with the number of elements it has as an array. -/
def Record.sizedTitle (r : Record) : String :=
  let n := r.fields.length
  r.title ++ " with " ++ toString n ++ (if n = 1 then " element" else " elements")

/-- What an instruction of a kind holds. -/
def payloadShape : Kind → Shape
  | .constInt32 => .int32
  | .constFloat64 => .float64
  | .constBool => .flag
  | kind => .record (.instruction kind)

/-- How a place is called that was given a value of another sort. Variants have no such name:
there, a value of another sort is not even well-formed. -/
def Shape.title? : Shape → Option String
  | .flag => some "a boolean"
  | .int32 => some "i32"
  | .float64 => some "f64"
  | .word => some "u32"
  | .text => some "a string"
  | .list _ => some "a sequence"
  | .record r => some r.title
  | .valueType | .operator | .instruction | .optionalInstruction => none

/-! ## Building -/

namespace Part

def valueType? : Part → Option ValueType
  | .valueType t => some t
  | _ => none

def instruction? : Part → Option Instruction
  | .instruction i => some i
  | _ => none

/-- An instruction that may be absent. -/
def optionalInstruction? : Part → Option (Option Instruction)
  | .instruction i => some (some i)
  | .absent => some none
  | _ => none

def function? : Part → Option Function
  | .function f => some f
  | _ => none

def module? : Part → Option Module
  | .module m => some m
  | _ => none

end Part

/-- The instruction of a kind with the given parts, in the order of its fields. -/
def buildInstruction : Kind → List Part → Option Instruction
  | .constInt32, [.int32 value] => some (.constInt32 value)
  | .constFloat64, [.float64 value] => some (.constFloat64 value)
  | .constBool, [.flag value] => some (.constBool value)
  | .localGet, [.word index, .valueType type] => some (.localGet index type)
  | .block, [.text label, .valueType type, .list children] =>
    (children.mapM Part.instruction?).map (.block label type ·)
  | .binaryOp, [.operator op, .valueType type, .instruction lhs, .instruction rhs] =>
    some (.binaryOp op type lhs rhs)
  | .breakTo, [.text label, value] => value.optionalInstruction?.map (.breakOptional label ·)
  | .cond, [.instruction condition, .instruction thenBody, elseBody] =>
    elseBody.optionalInstruction?.map (.ifOptional condition thenBody ·)
  | .storeLocal, [.word index, .instruction value] => some (.storeLocal index value)
  | .propertyAccess, [.instruction pointer, .word offset, .valueType type] =>
    some (.propertyAccess pointer offset type)
  | .propertyAssignment, [.instruction pointer, .word offset, .instruction value] =>
    some (.propertyAssignment pointer offset value)
  | .containerAlloc, [.word bytes] => some (.containerAlloc bytes)
  | .stackAlloc, [.word amount] => some (.stackAlloc amount)
  | .stackFree, [.word amount] => some (.stackFree amount)
  | _, _ => none

/-- Put the parts of a record together. The parts of an instruction's record stay a list: its kind
is written around it. -/
def Record.build : Record → List Part → Option Part
  | .module, [.text name, .list functions] =>
    (functions.mapM Part.function?).map fun functions => .module ⟨name, functions⟩
  | .function,
    [.text name, .list params, .valueType returnType, .list locals, .instruction body] => do
    let params ← params.mapM Part.valueType?
    let locals ← locals.mapM Part.valueType?
    return .function ⟨name, params, returnType, locals, body⟩
  | .instruction _, parts => some (.list parts)
  | _, _ => none

/-- The instruction of a kind around what it holds. -/
def buildVariant (kind : Kind) : Part → Option Part
  | .list parts => (buildInstruction kind parts).map .instruction
  | part => (buildInstruction kind [part]).map .instruction

end TreeWasm.Document
