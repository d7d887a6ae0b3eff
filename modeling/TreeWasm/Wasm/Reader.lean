-- SUMMARY: Readers of binary data: bytes, variable-length integers, names and counted sequences, with offsets.
import TreeWasm.Wasm.Fault

/-!
# Reading binaries

A reader takes bytes from the front of a cursor and stops at the first fault. A cursor knows how
far it is from the start of the binary. Each reader undoes the writer of the same thing.
-/

namespace TreeWasm.Wasm

/-- The bytes still to be read, and the offset of the first of them. -/
structure Cursor where
  offset : Nat
  rest : List UInt8
deriving DecidableEq, Repr, Inhabited

abbrev Reader (α : Type) : Type := StateT Cursor (Except Fault) α

namespace Reader

/-! ## Bytes -/

def fail (cause : Cause) (offset : Nat) : Reader α := throw ⟨cause, offset⟩

/-- The offset of the next byte. -/
def offset : Reader Nat := return (← get).offset

def byte : Reader UInt8 := fun c =>
  match c.rest with
  | b :: rest => .ok (b, ⟨c.offset + 1, rest⟩)
  | [] => .error ⟨.unexpectedEnd, c.offset⟩

/-- The next byte, which is still to be read. -/
def peek : Reader UInt8 := fun c =>
  match c.rest with
  | b :: _ => .ok (b, c)
  | [] => .error ⟨.unexpectedEnd, c.offset⟩

/-- The next `n` bytes as a cursor of their own. -/
def take (n : Nat) : Reader Cursor := fun c =>
  let front := c.rest.take n
  if front.length < n then .error ⟨.unexpectedEnd, c.offset⟩
  else .ok (⟨c.offset, front⟩, ⟨c.offset + n, c.rest.drop n⟩)

/-- What a reader reads, as a cursor of its own and still to be read. -/
def span (r : Reader α) : Reader Cursor := fun c => do
  let (_, behind) ← r c
  return (⟨c.offset, c.rest.take (behind.offset - c.offset)⟩, behind)

/-- Run a reader on a cursor of its own, to the end of which it must come. -/
def whole (r : Reader α) (c : Cursor) : Except Fault α := do
  let (a, c) ← r c
  if c.rest.isEmpty then return a else throw ⟨.sectionSizeMismatch, c.offset⟩

/-! ## Integers -/

/-- An unsigned integer of at most `groups + 1` bytes whose last byte, if all are used, is below
`bound`. -/
def unsignedGroups (type : String) (bound : Nat) : Nat → Reader Nat
  | 0 => do
    let start ← offset
    let b ← byte
    if 128 ≤ b.toNat then fail (.integerTooLong type) start
    else if bound ≤ b.toNat then fail (.integerTooLarge type) start
    else return b.toNat
  | groups + 1 => do
    let b ← byte
    if b.toNat < 128 then return b.toNat
    else return b.toNat - 128 + 128 * (← unsignedGroups type bound groups)

/-- An unsigned integer of 32 bits. The fifth group has four bits left. -/
def u32 : Reader Nat := unsignedGroups "var_u32" 16 4

/-- An unsigned integer of 64 bits. The tenth group has one bit left. -/
def u64 : Reader Nat := unsignedGroups "var_u64" 2 9

/-- The value of a last group of seven bits with its sign. -/
def signedGroup (b : UInt8) : Int :=
  if b.toNat % 128 < 64 then b.toNat % 128 else b.toNat % 128 - 128

/-- A signed integer of at most `groups + 1` bytes whose last group, if all are used, lies between
`-bound` and `bound - 1`. -/
def signedGroups (tooLong tooLarge : Cause) (bound : Int) : Nat → Reader Int
  | 0 => do
    let start ← offset
    let b ← byte
    if 128 ≤ b.toNat then fail tooLong start
    else if signedGroup b < -bound ∨ bound ≤ signedGroup b then fail tooLarge start
    else return signedGroup b
  | groups + 1 => do
    let b ← byte
    if b.toNat < 128 then return signedGroup b
    else return (b.toNat - 128 : Nat) + 128 * (← signedGroups tooLong tooLarge bound groups)

/-- A signed integer of 32 bits. -/
def s32 : Reader Int32 :=
  return .ofInt (← signedGroups (.integerTooLong "var_i32") (.integerTooLarge "var_i32") 8 4)

/-- A signed integer of 33 bits: an index, or something else if it is negative. -/
def s33 : Reader Int := signedGroups (.integerTooLong "var_s33") (.integerTooLong "var_s33") 16 4

/-- A signed integer of 64 bits. -/
def s64 : Reader Int :=
  signedGroups (.integerTooLong "var_i64") (.integerTooLarge "var_i64") 1 9

/-- Four bytes, the least significant first. -/
def fixedU32 : Reader Nat := do
  let c ← take 4
  return c.rest.foldr (fun b n => b.toNat + 256 * n) 0

/-! ## Names and sequences -/

/-- The most bytes a name may have. -/
def maxNameSize : Nat := 100000

/-- A name. An overlong one is found at the last byte of its length, and one that is no text at its
own last byte. -/
def name : Reader String := do
  let size ← u32
  let behind ← offset
  if maxNameSize < size then fail .stringTooLong (behind - 1)
  else
    let c ← take size
    match String.fromUTF8? ⟨c.rest.toArray⟩ with
    | some s => return s
    | none => fail (.malformed .text) (behind + size - 1)

/-- A count with a limit. An excess is found where the count starts. -/
def size (what : String) (limit : Nat) : Reader Nat := do
  let start ← offset
  let n ← u32
  if limit < n then fail (.sizeOutOfBounds what) start else return n

/-- `n` things in a row. -/
def times (r : Reader α) : Nat → Reader (List α)
  | 0 => return []
  | n + 1 => do
    let a ← r
    let as ← times r n
    return a :: as

/-- A thing with the offset it starts at. -/
def located (r : Reader α) : Reader (Nat × α) := do
  let start ← offset
  return (start, ← r)

/-- Bytes behind their number. -/
def sized : Reader Cursor := do take (← u32)

end Reader

end TreeWasm.Wasm
