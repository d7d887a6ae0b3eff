-- SUMMARY: A reader of binary modules by the grammar of the format, as far as this library writes them.
import TreeWasm.Proofs.Binary.Sequence
import TreeWasm.Wasm.Framing
import TreeWasm.Wasm.Validation.Code

/-!
# Reading modules

The grammar of binary modules: a preamble, then sections in the order of their ids, each of them a
counted sequence behind its size. The code of a function ends with the operator that closes its
body, and nothing comes behind that. A custom section may stand anywhere; the one that gives names
to functions is known here.

Sections that this library does not write are unknown, and so are the limits that other readers have
on the number or the size of things.
-/

namespace TreeWasm.Wasm

/-! ## Contents -/

/-- The code of a function with its slots one by one. -/
structure Body where
  locals : List ValType
  operators : List AnyOperator
deriving DecidableEq, Repr

/-- What a section says. -/
inductive Contents where
  | types (types : List FuncType)
  /-- For each function the index of its type. -/
  | functions (types : List Nat)
  | exports (exports : List Export)
  | codes (codes : List Body)
  /-- Function indices with names. -/
  | names (names : List (Nat × String))
deriving DecidableEq, Repr

namespace Reader

/-! ## Entries -/

/-- A byte that has to be there. -/
def expect (b : UInt8) (what : String) : Reader Unit := do
  let start ← offset
  let found ← byte
  if found = b then return else fail (.unexpectedByte found.toNat what) start

def functionType : Reader FuncType := do
  expect 0x60 "type"
  let params ← vec valueType
  let results ← vec valueType
  return ⟨params, results⟩

/-- An export of a function. -/
def functionExport : Reader Export := do
  let name ← text
  expect 0x00 "external kind"
  let function ← u32
  return ⟨name, function⟩

/-- The slots of a run. -/
def localRun : Reader (List ValType) := do
  let count ← u32
  let type ← valueType
  return List.replicate count type

/-- Operators up to the one that closes the last of the open frames. For each frame it is known
whether it may have an alternative. Every operator takes bytes, so `fuel` operators are enough for
`fuel` bytes. -/
def expression : Nat → List Bool → Reader (List AnyOperator)
  | _, [] => return []
  | 0, _ :: _ => do fail .unexpectedEnd (← offset)
  | fuel + 1, frame :: frames => do
    let start ← offset
    let op ← operator
    match Validation.checkNesting frame op with
    | .ok () => return op :: (← expression fuel (Validation.nest (frame :: frames) op))
    | .error cause => fail cause (start + 1)

def body : Reader Body := do
  let runs ← vec localRun
  let c ← get
  let operators ← expression c.rest.length [false]
  return ⟨runs.flatten, operators⟩

/-- The name of a function. -/
def functionName : Reader (Nat × String) := do
  let index ← u32
  let name ← text
  return (index, name)

/-- Names of functions, in a custom section of this title. -/
def functionNames : Reader (List (Nat × String)) := do
  let start ← offset
  let title ← text
  if title = "name" then
    expect 0x01 "name"
    within (vec functionName)
  else fail (.unknownSection 0) start

/-! ## Sections -/

/-- The contents of a section with an id. -/
def contentsOf (id : UInt8) : Reader Contents :=
  if id = 0x01 then .types <$> vec functionType
  else if id = 0x03 then .functions <$> vec u32
  else if id = 0x07 then .exports <$> vec functionExport
  else if id = 0x0a then .codes <$> vec (within body)
  else if id = 0x00 then .names <$> functionNames
  else do fail (.unknownSection id.toNat) (← offset)

/-- The sections up to the end of the bytes. They come in the order of their ids, custom ones aside.
Every section takes bytes, so `fuel` sections are enough for `fuel` bytes. -/
def sections : Nat → UInt8 → Reader (List Contents)
  | 0, _ => return []
  | fuel + 1, last => do
    if (← get).rest.isEmpty then return []
    else
      let start ← offset
      let id ← byte
      if id ≠ 0 ∧ id ≤ last then fail .sectionOutOfOrder start
      else
        let contents ← within (contentsOf id)
        return contents :: (← sections fuel (if id = 0 then last else id))

/-- A whole binary of at most the given number of bytes. -/
def binary (size : Nat) : Reader (List Contents) := do
  if ← preamble then fail (.unknownVersion componentVersion) 4 else sections size 0

end Reader

/-- What the sections of a binary module say, in order. -/
def readModule (bytes : List UInt8) : Except Fault (List Contents) :=
  Reader.whole (Reader.binary bytes.length) ⟨0, bytes⟩

end TreeWasm.Wasm
