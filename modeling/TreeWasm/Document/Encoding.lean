-- SUMMARY: Programs written as JSON documents.
import TreeWasm.Json.Printing
import TreeWasm.Tree.Program

/-!
# Encoding

Every field is written, in order, those that could be left out as well. A floating-point number
that is not finite has no numeral and is written as null, which no document may hold in its place.
-/

namespace TreeWasm.Document

open Json (Key)

/-- A record. -/
def record (fields : List (String × Json)) : Json :=
  .object (fields.map fun (name, v) => (.text name, v))

/-- A variant around what it holds. -/
def variant (kind : Kind) (payload : Json) : Json := record [(kind.name, payload)]

def ofText (s : String) : Json := .string (some s)

def ofWord (n : UInt32) : Json := .number (.integer n.toNat)

def ofInt32 (n : Int32) : Json := .number (.integer n.toInt)

def ofFloat (x : Binary64) : Json := if x.isFinite then .number (.float x) else .null

def ofValueType (t : ValueType) : Json := ofText t.name

def ofOperator (op : Arith) : Json := ofText op.name

mutual

def ofInstruction : Instruction → Json
  | .constInt32 value => variant .constInt32 (ofInt32 value)
  | .constFloat64 value => variant .constFloat64 (ofFloat value)
  | .constBool value => variant .constBool (.bool value)
  | .localGet index type =>
    variant .localGet (record [("index", ofWord index), ("value_type", ofValueType type)])
  | .block label type children =>
    variant .block (record [("label", ofText label), ("value_type", ofValueType type),
      ("children", .array (ofInstructions children))])
  | .binaryOp op type lhs rhs =>
    variant .binaryOp (record [("op", ofOperator op), ("value_type", ofValueType type),
      ("lhs", ofInstruction lhs), ("rhs", ofInstruction rhs)])
  | .breakTo label => variant .breakTo (record [("label", ofText label), ("value", .null)])
  | .breakWith label value =>
    variant .breakTo (record [("label", ofText label), ("value", ofInstruction value)])
  | .ifThen condition thenBody =>
    variant .cond (record [("condition", ofInstruction condition),
      ("then_body", ofInstruction thenBody), ("else_body", .null)])
  | .ifElse condition thenBody elseBody =>
    variant .cond (record [("condition", ofInstruction condition),
      ("then_body", ofInstruction thenBody), ("else_body", ofInstruction elseBody)])
  | .storeLocal index value =>
    variant .storeLocal (record [("index", ofWord index), ("value", ofInstruction value)])
  | .propertyAccess pointer offset type =>
    variant .propertyAccess (record [("pointer", ofInstruction pointer),
      ("offset", ofWord offset), ("value_type", ofValueType type)])
  | .propertyAssignment pointer offset value =>
    variant .propertyAssignment (record [("pointer", ofInstruction pointer),
      ("offset", ofWord offset), ("value", ofInstruction value)])
  | .containerAlloc bytes => variant .containerAlloc (record [("bytes", ofWord bytes)])
  | .stackAlloc amount => variant .stackAlloc (record [("amount", ofWord amount)])
  | .stackFree amount => variant .stackFree (record [("amount", ofWord amount)])

def ofInstructions : List Instruction → List Json
  | [] => []
  | i :: is => ofInstruction i :: ofInstructions is

end

def ofFunction (f : Function) : Json :=
  record [("name", ofText f.name), ("params", .array (f.params.map ofValueType)),
    ("return_type", ofValueType f.returnType), ("locals", .array (f.locals.map ofValueType)),
    ("body", ofInstruction f.body)]

def ofModule (m : Module) : Json :=
  record [("name", ofText m.name), ("functions", .array (m.functions.map ofFunction))]

/-- The document of a program. -/
def ofProgram (program : List Module) : Json := .array (program.map ofModule)

/-- The text of the document of a program. -/
def encodeProgram (program : List Module) : String := (ofProgram program).toText

end TreeWasm.Document
