-- SUMMARY: Programs read from JSON documents.
import TreeWasm.Document.Schema
import TreeWasm.Json.Reading

/-!
# Decoding

A document is checked from left to right against the schema, and the first thing wrong with it is
reported, be it a value that does not fit or the place where its text stops being JSON. Fields may
come in any order. Unknown fields are skipped, whatever JSON they hold. A record may also be an
array of its fields in order.

Arrays and objects nest at most `maxDepth` deep, those inside skipped values not counted.
-/

namespace TreeWasm.Document

/-- The most arrays and objects that may be open at once. -/
def maxDepth : Nat := 127

/-- Open an array or an object inside `depth` others. -/
def enter (depth : Nat) : Except Fault Unit :=
  if depth < maxDepth then .ok () else .error .malformed

/-- What is due in the place of the value is of another sort. -/
def unfit (expected : String) (found : Json) : Except Fault α :=
  match found.description? with
  | some s => .error (.wrongType s expected)
  | none => .error .malformed

/-- The value is of another sort than its place calls for. -/
def Shape.refuse (shape : Shape) (found : Json) : Except Fault α :=
  match shape.title? with
  | some expected => unfit expected found
  | none => .error .malformed

/-- A step that cannot fail on parts that were decoded by the schema. -/
def built : Option Part → Except Fault Part
  | some part => .ok part
  | none => .error .malformed

/-! ## Plain values -/

/-- An integer with bounds. -/
def bounded (least greatest n : Int) (expected : String) : Except Fault Int :=
  if least ≤ n ∧ n ≤ greatest then .ok n
  else .error (.wrongValue ("integer `" ++ toString n ++ "`") expected)

/-- The floating-point number nearest to an integer. -/
def floatOfInt (n : Int) : Binary64 := (Binary64.ofNat n.natAbs).withSign (n < 0)

def decodeNumber (shape : Shape) (n : Json.Number) : Except Fault Part :=
  match shape, n with
  | .int32, .integer n => do return .int32 (.ofInt (← bounded (-2147483648) 2147483647 n "i32"))
  | .word, .integer n => do return .word (.ofNat (← bounded 0 4294967295 n "u32").toNat)
  | .float64, .integer n => .ok (.float64 (floatOfInt n))
  | .float64, .float x => .ok (.float64 x)
  | shape, n => shape.refuse (.number n)

def decodeValueType (name : String) : Except Fault Part :=
  match ValueType.ofName? name with
  | some t => .ok (.valueType t)
  | none => .error (.unknownVariant name (ValueType.all.map ValueType.name))

def decodeOperator (name : String) : Except Fault Part :=
  match Arith.ofName? name with
  | some op => .ok (.operator op)
  | none => .error (.unknownVariant name (Arith.all.map Arith.name))

def decodeKind (name : String) : Except Fault Kind :=
  match Kind.ofName? name with
  | some k => .ok k
  | none => .error (.unknownVariant name (Kind.all.map Kind.name))

/-- A string never stands for an instruction, since every kind holds something. -/
def bareKind (name : String) : Except Fault Part := do
  match payloadShape (← decodeKind name) with
  | .record _ => throw (.wrongType "unit variant" "struct variant")
  | _ => throw (.wrongType "unit variant" "newtype variant")

def decodeString (shape : Shape) (text : Option String) : Except Fault Part :=
  match shape, text with
  | .text, some s => .ok (.text s)
  | .valueType, some s => decodeValueType s
  | .operator, some s => decodeOperator s
  | .instruction, some s | .optionalInstruction, some s => bareKind s
  | shape, text => shape.refuse (.string text)

/-! ## Variants -/

/-- The name of a variant that is written as a key. -/
def variantName : Json.Key → Except Fault String
  | .text name => .ok name
  | .unreadable | .absent => .error .malformed

/-- A variant that holds nothing, written as a key with null behind it. -/
def decodeUnit (decode : String → Except Fault Part) : List (Json.Key × Json) → Except Fault Part
  | [] => .error .malformed
  | (key, v) :: members => do
    let part ← decode (← variantName key)
    match v, members with
    | .null, [] => return part
    | .null, _ => throw .malformed
    | v, _ => unfit "unit" v

/-! ## Records -/

/-- The parts of a record in the order of its fields, from the fields that were seen. -/
def collect (seen : List (String × Part)) : List Field → Except Fault (List Part)
  | [] => .ok []
  | f :: fields =>
    match (seen.lookup f.name).orElse fun _ => f.default? with
    | some part => do return part :: (← collect seen fields)
    | none => .error (.missingField f.name)

/-- The parts of the fields that an array of `length` elements leaves off. -/
def leftOff (record : Record) (length : Nat) : List Field → Except Fault (List Part)
  | [] => .ok []
  | f :: fields =>
    match f.default? with
    | some part => do return part :: (← leftOff record (length + 1) fields)
    | none => .error (.wrongLength length record.sizedTitle)

/-! ## Values -/

mutual

/-- The part that a value inside `depth` arrays and objects is, in a place of the given shape. -/
def decode (depth : Nat) (shape : Shape) : Json → Except Fault Part
  | .null =>
    match shape with
    | .optionalInstruction => .ok .absent
    | shape => shape.refuse .null
  | .bool b =>
    match shape with
    | .flag => .ok (.flag b)
    | shape => shape.refuse (.bool b)
  | .number n => decodeNumber shape n
  | .string text => decodeString shape text
  | .array elements =>
    match shape with
    | .list element => do
      enter depth
      return .list (← decodeAll (depth + 1) element elements)
    | .record record => do
      enter depth
      built (record.build (← decodeElements (depth + 1) record 0 record.fields elements))
    | shape => shape.refuse (.array [])
  | .object members =>
    match shape with
    | .record record => do
      enter depth
      let seen ← decodeMembers (depth + 1) record.fields [] members
      built (record.build (← collect seen record.fields))
    | .valueType => do
      enter depth
      decodeUnit decodeValueType members
    | .operator => do
      enter depth
      decodeUnit decodeOperator members
    | .instruction | .optionalInstruction => do
      enter depth
      decodeVariant (depth + 1) members
    | shape => shape.refuse (.object [])
  | .broken => .error .malformed

/-- The parts of an array whose elements are all of one shape. -/
def decodeAll (depth : Nat) (shape : Shape) : List Json → Except Fault (List Part)
  | [] => .ok []
  | v :: vs => do
    let part ← decode depth shape v
    let parts ← decodeAll depth shape vs
    return part :: parts

/-- The parts of a record written as an array, from the field number `index` on. -/
def decodeElements (depth : Nat) (record : Record) (index : Nat) (fields : List Field) :
    List Json → Except Fault (List Part)
  | [] => leftOff record index fields
  | v :: vs =>
    match fields with
    | [] => .error .malformed
    | f :: fields => do
      let part ← decode depth f.shape v
      let parts ← decodeElements depth record (index + 1) fields vs
      return part :: parts

/-- The fields of a record written as an object, as far as they were seen, the last one first. -/
def decodeMembers (depth : Nat) (fields : List Field) (seen : List (String × Part)) :
    List (Json.Key × Json) → Except Fault (List (String × Part))
  | [] => .ok seen
  | (key, v) :: members =>
    match key with
    | .text name =>
      match fields.find? (·.name == name) with
      | none =>
        if v.isWhole then decodeMembers depth fields seen members else .error .malformed
      | some f =>
        if (seen.lookup name).isSome then .error (.duplicateField name)
        else do
          let part ← decode depth f.shape v
          decodeMembers depth fields ((name, part) :: seen) members
    | _ => .error .malformed

/-- An instruction: its kind as the only key, and what it holds behind it. -/
def decodeVariant (depth : Nat) : List (Json.Key × Json) → Except Fault Part
  | [] => .error .malformed
  | (key, v) :: members => do
    let kind ← decodeKind (← variantName key)
    let payload ← decode depth (payloadShape kind) v
    match members with
    | [] => built (buildVariant kind payload)
    | _ => throw .malformed

end

/-! ## Documents -/

/-- The part that a text as a whole is. -/
def decodeText (shape : Shape) (text : String) : Except Fault Part := do
  let document := Json.ofText text
  let part ← decode 0 shape document.value
  if document.complete then return part else throw .malformed

/-- The module of a document. -/
def decodeModule (text : String) : Except Fault Module := do
  match (← decodeText (.record .module) text).module? with
  | some m => return m
  | none => throw .malformed

/-- The modules of a document that lists them. -/
def decodeProgram (text : String) : Except Fault (List Module) := do
  match ← decodeText (.list (.record .module)) text with
  | .list parts =>
    match parts.mapM Part.module? with
    | some program => return program
    | none => throw .malformed
  | _ => throw .malformed

end TreeWasm.Document
