-- SUMMARY: Readers of types: of values, references, definitions, tables, memories, globals and tags.
import TreeWasm.Wasm.AnyOperator
import TreeWasm.Wasm.Reader

/-!
# Reading types

Numbers and vectors have a code of one byte, and so have references that may be null to things of a
kind. Other references spell out what they point to.
-/

namespace TreeWasm.Wasm

/-- The sizes that a table or a memory may have. A `wide` one has addresses of 64 bits. -/
structure Limits where
  isWide : Bool
  isShared : Bool
  least : Nat
  most? : Option Nat
deriving DecidableEq, Repr, Inhabited

namespace Limits

/-- The type of addresses. -/
def addressType (l : Limits) : ValType := if l.isWide then .i64 else .i32

end Limits

structure TableType where
  element : RefType
  limits : Limits
deriving DecidableEq, Repr, Inhabited

structure MemoryType where
  limits : Limits
  pageSize? : Option Nat
deriving DecidableEq, Repr, Inhabited

structure GlobalType where
  value : ValType
  isMutable : Bool
  isShared : Bool
deriving DecidableEq, Repr, Inhabited

namespace Reader

/-! ## Values -/

/-- A kind of things that a reference points to. A byte in front of its code tells that threads may
share them. -/
def heapKind : Reader HeapType := do
  let start ← offset
  let b ← byte
  let (code, isShared) ← if b = 0x65 then (·, true) <$> byte else pure (b, false)
  match HeapKind.ofCode? code with
  | some k => return .kind k isShared
  | none => fail (.malformed .heapType) start

/-- What a reference points to: the index of a type, or else a code, which is a negative number by
itself. -/
def heapType : Reader HeapType := do
  let c ← get
  let n ← s33
  if 0 ≤ n then return .defined (.ofNat n.toNat)
  else
    set c
    if (← peek) = 0x62 then
      let _ ← byte
      return .exact (.ofNat (← u32))
    else heapKind

def refType : Reader RefType := do
  let b ← peek
  if b = 0x63 then
    let _ ← byte
    return ⟨true, ← heapType⟩
  else if b = 0x64 then
    let _ ← byte
    return ⟨false, ← heapType⟩
  else return ⟨true, ← heapKind⟩

def valueType : Reader ValType := do
  let start ← offset
  let b ← peek
  match ValType.ofCode? b with
  | some t =>
    let _ ← byte
    return t
  | none =>
    if b = 0x63 ∨ b = 0x64 ∨ b = 0x65 ∨ (HeapKind.ofCode? b).isSome then return .ref (← refType)
    else fail (.malformed .valueType) start

/-- The type of a frame. A byte that is a negative number by itself stands for no value or for the
type of one. -/
def blockType : Reader BlockType := do
  let b ← peek
  if 64 ≤ b.toNat ∧ b.toNat < 128 then
    if b = 0x40 then
      let _ ← byte
      return .result none
    else return .result (some (← valueType))
  else
    let n ← s33
    if 0 ≤ n then return .typed n.toNat else fail (.malformed .functionType) (← offset)

/-! ## Definitions -/

/-- The most values a function may take, and the most it may give back. -/
def maxValues : Nat := 1000

def arrow : Reader FuncType := do
  let params ← times valueType (← size "function params" maxValues)
  let results ← times valueType (← size "function returns" maxValues)
  return ⟨params, results⟩

def storage : Reader Storage := do
  let b ← peek
  if b = 0x78 then
    let _ ← byte
    return .i8
  else if b = 0x77 then
    let _ ← byte
    return .i16
  else return .value (← valueType)

def field : Reader Field := do
  let storage ← storage
  let flag ← byte
  if flag = 0 then return ⟨storage, false⟩
  else if flag = 1 then return ⟨storage, true⟩
  else fail (.malformed .fieldMutability) (← offset)

/-- The most fields a structure may have. -/
def maxFields : Nat := 10000

/-- A definition behind its form, which was found at `start`. -/
def composite (form : UInt8) (start : Nat) : Reader Composite := do
  if form = 0x60 then return .func (← arrow)
  else if form = 0x5f then return .struct (← times field (← size "struct fields" maxFields))
  else if form = 0x5e then return .array (← field)
  else fail (.unexpectedByte form.toNat "type") start

/-- The most types a list of types above another one may have. -/
def maxSupertypes : Nat := 1

def subType : Reader SubType := do
  let start ← offset
  let form ← byte
  if form = 0x50 ∨ form = 0x4f then
    let above ← times u32 (← size "supertype idxs" maxSupertypes)
    let start ← offset
    let form' ← byte
    return ⟨form = 0x4f, above.head?.map (.defined <| .ofNat ·), ← composite form' start⟩
  else return ⟨true, none, ← composite form start⟩

/-- The most types, functions, globals, imports and exports a module may have of each. -/
def maxEntries : Nat := 1000000

/-- The types that one entry defines, with their offsets. -/
def group : Reader (List (Nat × SubType)) := do
  if (← peek) = 0x4e then
    let _ ← byte
    times (located subType) (← size "rec group" maxEntries)
  else return [← located subType]

/-! ## Tables, memories, globals and tags -/

/-- The limits behind their flags. -/
def limits (flags : Nat) : Reader Limits := do
  let wide := flags / 4 % 2 = 1
  let bound := if wide then u64 else u32
  let least ← bound
  let most? ← if flags % 2 = 1 then some <$> bound else pure none
  return ⟨wide, flags / 2 % 2 = 1, least, most?⟩

def tableType : Reader TableType := do
  let element ← refType
  let start ← offset
  let flags ← byte
  if 8 ≤ flags.toNat then fail (.malformed .tableLimits) start
  else return ⟨element, ← limits flags.toNat⟩

def memoryType : Reader MemoryType := do
  let start ← offset
  let flags ← byte
  if 16 ≤ flags.toNat then fail (.malformed .memoryLimits) start
  else
    let limits ← limits flags.toNat
    let pageSize? ← if 8 ≤ flags.toNat then some <$> u32 else pure none
    return ⟨limits, pageSize?⟩

def globalType : Reader GlobalType := do
  let value ← valueType
  let start ← offset
  let flags ← byte
  if 4 ≤ flags.toNat then fail (.malformed .mutability) start
  else return ⟨value, flags.toNat % 2 = 1, flags.toNat / 2 % 2 = 1⟩

/-- The type of a tag, by its index. -/
def tagType : Reader Nat := do
  let start ← offset
  let kind ← byte
  if kind ≠ 0 then fail (.malformed .tagAttributes) start else u32

end Reader

end TreeWasm.Wasm
