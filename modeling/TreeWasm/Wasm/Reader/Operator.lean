-- SUMMARY: Readers of operators.
import TreeWasm.Binary64.Basic
import TreeWasm.Wasm.OperatorTable
import TreeWasm.Wasm.Reader.Type

/-!
# Reading operators

The first byte of an operator tells which one it is, or that its code follows in a table of its own.
An unknown code is found where the operator starts. `operator` reads what `Operator.encode` writes
as a `basic` one.
-/

namespace TreeWasm.Wasm.Reader

/-! ## Arguments -/

/-- An operator that opens a frame. Frames that take nothing and leave at most one value are
basic. -/
def opening (basic : Option ValType → Operator) (other : BlockType → AnyOperator) :
    Reader AnyOperator := do
  match ← blockType with
  | .result type => return .basic (basic type)
  | type => return other type

/-- The place of an access to memory. A flag in the alignment tells that a memory is named. -/
def memoryArg : Reader MemoryArg := do
  let start ← offset
  let flags ← u32
  let named := flags / 64 % 2 = 1
  let memory ← if named then u32 else pure 0
  let alignment := if named then flags - 64 else flags
  if 64 ≤ alignment then fail (.malformed .alignment) start
  else return ⟨alignment, memory, ← u64⟩

/-- The most targets a table of branches may have. -/
def maxTargets : Nat := 131072

def branchTable : Reader AnyOperator := do
  let depths ← times u32 (← size "br_table" maxTargets)
  return .branchTable depths (← u32)

/-- The most types that a selection may name. -/
def maxSelected : Nat := 10

def handlerOf : Reader Handler := do
  let start ← offset
  let kind ← byte
  if kind = 0 then return ⟨some (← u32), false, ← u32⟩
  else if kind = 1 then return ⟨some (← u32), true, ← u32⟩
  else if kind = 2 then return ⟨none, false, ← u32⟩
  else if kind = 3 then return ⟨none, true, ← u32⟩
  else fail (.unexpectedByte kind.toNat "catch") start

/-- The most handlers a frame may have. -/
def maxHandlers : Nat := 10000

/-- The flags, the depth and the two ends of a branch on a cast. -/
def castArgs : Reader (Nat × Nat × HeapType × HeapType) := do
  let start ← offset
  let flags ← byte
  if 4 ≤ flags.toNat then fail (.malformed (.castFlags flags.toNat)) start
  else return (flags.toNat, ← u32, ← heapType, ← heapType)

/-- The most clauses a resumption may have. -/
def maxClauses : Nat := 10000

/-- What a resumption does on a suspension with a tag: go on at a label, or switch. -/
def clause : Reader Unit := do
  let start ← offset
  let kind ← byte
  if kind = 0 then
    let _ ← u32
    let _ ← u32
  else if kind = 1 then
    let _ ← u32
  else fail (.unexpectedByte kind.toNat "on clause") start

/-- Pass over an argument. -/
def argument : Argument → Reader Unit
  | .index => Functor.discard u32
  | .block => Functor.discard blockType
  | .heap => Functor.discard heapType
  | .cast => Functor.discard castArgs
  | .clauses => do Functor.discard (times clause (← size "resume table" maxClauses))
  | .ordering => do
    let start ← offset
    let b ← byte
    if 2 ≤ b.toNat then fail (.malformed (.ordering b.toNat)) start

/-- An operator of an extension that modules may not use, by its code. -/
def added (additions : List Addition) (code : Nat) (unknown : Cause) (start : Nat) :
    Reader AnyOperator := do
  match Addition.find? additions code with
  | some (name, addition) =>
    addition.args.forM argument
    return .disabled name addition.feature
  | none => fail unknown start

/-- The arguments of a plain operator. -/
def plain (op : PlainOp) : Reader AnyOperator := do
  let arg ← match op.memory? with
    | some _ => some <$> memoryArg
    | none => pure none
  let lane ← match op.lanes? with
    | some _ => UInt8.toNat <$> byte
    | none => pure 0
  return .plain op arg lane

/-! ## Codes behind a leading byte -/

/-- References, structures and arrays. -/
def managedOperator (start : Nat) : Reader AnyOperator := do
  match ← u32 with
  | 0x00 => return .structNew (← u32)
  | 0x01 => return .structNewDefault (← u32)
  | 0x02 => return .structGet .whole (← u32) (← u32)
  | 0x03 => return .structGet .signed (← u32) (← u32)
  | 0x04 => return .structGet .unsigned (← u32) (← u32)
  | 0x05 => return .structSet (← u32) (← u32)
  | 0x06 => return .arrayNew (← u32)
  | 0x07 => return .arrayNewDefault (← u32)
  | 0x08 => return .arrayNewFixed (← u32) (← u32)
  | 0x09 => return .arrayNewData (← u32) (← u32)
  | 0x0a => return .arrayNewElement (← u32) (← u32)
  | 0x0b => return .arrayGet .whole (← u32)
  | 0x0c => return .arrayGet .signed (← u32)
  | 0x0d => return .arrayGet .unsigned (← u32)
  | 0x0e => return .arraySet (← u32)
  | 0x0f => return .arrayLength
  | 0x10 => return .arrayFill (← u32)
  | 0x11 => return .arrayCopy (← u32) (← u32)
  | 0x12 => return .arrayInitData (← u32) (← u32)
  | 0x13 => return .arrayInitElement (← u32) (← u32)
  | 0x14 => return .refTest ⟨false, ← heapType⟩
  | 0x15 => return .refTest ⟨true, ← heapType⟩
  | 0x16 => return .refCast ⟨false, ← heapType⟩
  | 0x17 => return .refCast ⟨true, ← heapType⟩
  | 0x18 =>
    let (flags, depth, source, target) ← castArgs
    return .branchOnCast depth ⟨flags % 2 = 1, source⟩ ⟨flags / 2 = 1, target⟩
  | 0x19 =>
    let (flags, depth, source, target) ← castArgs
    return .branchOnCastFail depth ⟨flags % 2 = 1, source⟩ ⟨flags / 2 = 1, target⟩
  | 0x1a => return .fromHost
  | 0x1b => return .toHost
  | 0x1c => return .refI31
  | 0x1d => return .i31Get .signed
  | 0x1e => return .i31Get .unsigned
  | code => added Addition.managed code (.illegalSubcode 0xfb code) start

/-- Conversions that cannot fail, and operators on whole tables and memories. -/
def bulkOperator (start : Nat) : Reader AnyOperator := do
  match ← u32 with
  | 8 => return .memoryInit (← u32) (← u32)
  | 9 => return .dataDrop (← u32)
  | 10 => return .memoryCopy (← u32) (← u32)
  | 11 => return .memoryFill (← u32)
  | 12 => return .tableInit (← u32) (← u32)
  | 13 => return .elementDrop (← u32)
  | 14 => return .tableCopy (← u32) (← u32)
  | 15 => return .tableGrow (← u32)
  | 16 => return .tableSize (← u32)
  | 17 => return .tableFill (← u32)
  | code =>
    match Family.find? Family.saturating code with
    | some op => plain op
    | none => added Addition.bulk code (.illegalSubcode 0xfc code) start

/-- Vectors. -/
def vectorOperator (start : Nat) : Reader AnyOperator := do
  match ← u32 with
  | 12 =>
    let _ ← take 16
    return .plain (.constant .v128) none 0
  | 13 => return .shuffle ((← take 16).rest.map UInt8.toNat)
  | code =>
    match Family.find? Family.vector code with
    | some op => plain op
    | none => fail (.illegalSubcode 0xfd code) start

/-- Atomic access. -/
def atomicOperator (start : Nat) : Reader AnyOperator := do
  match ← u32 with
  | 3 =>
    if (← byte) ≠ 0 then fail (.malformed .fence) ((← offset) - 1) else return .fence
  | code =>
    match Family.find? Family.atomic code with
    | some op => plain op
    | none => added Addition.atomic code (.illegalSubcode 0xfe code) start

/-! ## Operators -/

/-- An operator behind its first byte, which was found at `start`, if `Operator.encode` does not
write such ones. -/
def otherOperator (code : UInt8) (start : Nat) : Reader AnyOperator := do
  match code.toNat with
  | 0x00 => return .unreachable
  | 0x01 => return .nop
  | 0x03 => return .loop (← blockType)
  | 0x07 => return .handler "catch"
  | 0x08 => return .throwTag (← u32)
  | 0x0a => return .throwRef
  | 0x0d => return .branchIf (← u32)
  | 0x0e => branchTable
  | 0x0f => return .leave
  | 0x10 => return .call (← u32)
  | 0x11 => return .callIndirect (← u32) (← u32)
  | 0x12 => return .tailCall (← u32)
  | 0x13 => return .tailCallIndirect (← u32) (← u32)
  | 0x14 => return .callRef (← u32)
  | 0x15 => return .tailCallRef (← u32)
  | 0x18 => return .handler "delegate"
  | 0x19 => return .handler "catch_all"
  | 0x1b => return .select
  | 0x1c => return .selectTyped (← times valueType (← size "select types" maxSelected))
  | 0x1f =>
    let type ← blockType
    return .tryTable type (← times handlerOf (← size "catches" maxHandlers))
  | 0x21 => return .localSet (← u32)
  | 0x22 => return .localTee (← u32)
  | 0x23 => return .globalGet (← u32)
  | 0x24 => return .globalSet (← u32)
  | 0x25 => return .tableGet (← u32)
  | 0x26 => return .tableSet (← u32)
  | 0x3f => return .memorySize (← u32)
  | 0x40 => return .memoryGrow (← u32)
  | 0x42 =>
    let _ ← s64
    return .plain (.constant .i64) none 0
  | 0x43 =>
    let _ ← take 4
    return .plain (.constant .f32) none 0
  | 0xd0 => return .refNull (← heapType)
  | 0xd1 => return .refIsNull
  | 0xd2 => return .refFunc (← u32)
  | 0xd3 => return .refEq
  | 0xd4 => return .refAsNonNull
  | 0xd5 => return .branchOnNull (← u32)
  | 0xd6 => return .branchOnNonNull (← u32)
  | 0xfb => managedOperator start
  | 0xfc => bulkOperator start
  | 0xfd => vectorOperator start
  | 0xfe => atomicOperator start
  | code =>
    match Family.find? Family.single code with
    | some op => plain op
    | none => added Addition.single code (.illegalOpcode code) start

def operator : Reader AnyOperator := do
  let start ← offset
  let b ← byte
  if b = 0x41 then return .basic (.constI32 (← s32))
  else if b = 0x44 then return .basic (.constF64 (.ofBytes (← take 8).rest))
  else if b = 0x20 then return .basic (.localGet (.ofNat (← u32)))
  else if b = 0x02 then opening .block .block
  else if b = 0x04 then opening .cond .cond
  else if b = 0x05 then return .basic .alternative
  else if b = 0x0b then return .basic .finish
  else if b = 0x0c then return .basic (.branch (← u32))
  else if b = 0x1a then return .basic .drop
  else
    match MachineOp.ofCode? b with
    | some op => return .basic (.numeric op)
    | none => otherOperator b start

end TreeWasm.Wasm.Reader
