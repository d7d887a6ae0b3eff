-- SUMMARY: The framing of a binary module: its sections and code entries, up to the first fault in what delimits them.
import TreeWasm.Wasm.Reader

/-!
# Framing

The sizes in a binary cut it into sections and its code section into entries. `frame` lists these
parts in order. Where a size does not fit, a header is cut off, a section is out of its place, or
the sections disagree on how many entries they have, the list ends, and the fault is kept beside
it: what comes before the fault can still be looked at.
-/

namespace TreeWasm.Wasm

/-! ## Sections -/

/-- The sections of a module, in the order that they come in. -/
inductive Section where
  | types
  | imports
  | functions
  | tables
  | memories
  | tags
  | globals
  | exports
  | start
  | elements
  | dataCount
  | code
  | data
deriving DecidableEq, Repr, Inhabited

namespace Section

def all : List Section :=
  [.types, .imports, .functions, .tables, .memories, .tags, .globals, .exports, .start, .elements,
   .dataCount, .code, .data]

/-- The byte that a section starts with. A custom section, which may stand anywhere, starts with
zero. -/
def id : Section → Nat
  | .types => 1
  | .imports => 2
  | .functions => 3
  | .tables => 4
  | .memories => 5
  | .globals => 6
  | .exports => 7
  | .start => 8
  | .elements => 9
  | .code => 10
  | .data => 11
  | .dataCount => 12
  | .tags => 13

def ofId? (n : Nat) : Option Section := all.find? (·.id == n)

/-- The place of a section among all. -/
def place (s : Section) : Nat := all.idxOf s

end Section

/-! ## Parts -/

/-- A part of a binary. -/
inductive Part where
  /-- A section that starts at `start` and has `count` entries. -/
  | entries (kind : Section) (start count : Nat) (contents : Cursor)
  /-- A section that starts at `start` and holds one number. -/
  | number (kind : Section) (start value : Nat)
  /-- The code of a function, without its size. -/
  | codeEntry (body : Cursor)
deriving DecidableEq, Repr, Inhabited

/-- The parts of a binary in order, and the fault that follows them if the framing breaks off. -/
structure Framing where
  parts : List Part
  fault : Option Fault
deriving DecidableEq, Repr, Inhabited

namespace Framing

def cons (part : Part) (f : Framing) : Framing := { f with parts := part :: f.parts }

def complete : Framing := ⟨[], none⟩

def broken (fault : Fault) : Framing := ⟨[], some fault⟩

/-- Go on if nothing was wrong. -/
def andThen (r : Except Fault α) (next : α → Framing) : Framing :=
  match r with
  | .ok a => next a
  | .error fault => broken fault

end Framing

/-! ## Headers -/

/-- The version of binaries that hold components instead of a module. -/
def componentVersion : Nat := 0x1000d

namespace Reader

/-- The magic number and the version. Tells whether the binary holds components. -/
def preamble : Reader Bool := do
  let start ← offset
  let found ← take 4
  if found.rest ≠ magic then fail (.badMagic found.rest) start
  else
    let version ← fixedU32
    if version = 1 then return false
    else if version = componentVersion then return true
    else fail (.unknownVersion version) (start + 4)

/-- The id and the size of a section. -/
def sectionHeader : Reader (Nat × Nat) := do
  let start ← offset
  let id ← byte
  if 128 ≤ id.toNat then fail (.malformed .sectionId) start else return (id.toNat, ← u32)

/-- A number that a section holds, and nothing else. -/
def sectionNumber (what : String) (contents : Cursor) : Except Fault Nat := do
  let (n, c) ← u32 contents
  if c.rest.isEmpty then return n else throw ⟨.contentBehindItem what, c.offset⟩

/-- A code entry in a code section with `left` bytes to go. Gives back what is left behind it. -/
def codeEntry (left : Nat) : Reader (Cursor × Nat) := do
  let start ← offset
  let body ← sized
  let used := (← offset) - start
  if left < used then fail .unexpectedEnd start else return (body, left - used)

/-- The number of code entries in a code section of `size` bytes. Gives back what is left behind
it. -/
def codeCount (size : Nat) : Reader (Nat × Nat) := do
  let start ← offset
  let count ← u32
  let used := (← offset) - start
  if size < used then fail .unexpectedEnd start else return (count, size - used)

end Reader

/-! ## Agreement of sections -/

/-- What the sections before a point have said about each other. -/
structure Progress where
  /-- The number of places that are behind. -/
  passed : Nat := 0
  functions? : Option Nat := none
  codes? : Option Nat := none
  /-- The number of data segments that is announced. -/
  announced? : Option Nat := none
  data? : Option Nat := none
deriving DecidableEq, Repr, Inhabited

namespace Progress

/-- Sections come in the order of their places, each at most once. -/
def enter (p : Progress) (s : Section) (offset : Nat) : Except Fault Progress :=
  if p.passed ≤ s.place then .ok { p with passed := s.place + 1 }
  else .error ⟨.sectionOutOfOrder, offset⟩

/-- Every function has code. A missing section is one without entries. -/
def checkCodes (p : Progress) (offset : Nat) : Except Fault Unit :=
  match p.functions?, p.codes? with
  | some n, some m => if n = m then .ok () else .error ⟨.inconsistentCodes, offset⟩
  | some n, none => if n = 0 then .ok () else .error ⟨.missingCodes, offset⟩
  | none, some m => if m = 0 then .ok () else .error ⟨.missingFunctions, offset⟩
  | none, none => .ok ()

/-- There are as many data segments as are announced. -/
def checkData (p : Progress) (offset : Nat) : Except Fault Unit :=
  match p.announced?, p.data? with
  | some n, some m => if n = m then .ok () else .error ⟨.inconsistentData, offset⟩
  | some n, none => if n = 0 then .ok () else .error ⟨.missingData, offset⟩
  | none, _ => .ok ()

end Progress

/-! ## Framing -/

/-- The end of a module. -/
def frameEnd (p : Progress) (offset : Nat) : Framing :=
  .andThen (p.checkCodes offset) fun _ => .andThen (p.checkData offset) fun _ => .complete

/-- The entries of a code section with `left` bytes to go, and what follows it. -/
def frameEntries (next : Cursor → Framing) : Nat → Nat → Cursor → Framing
  | 0, 0, c => next c
  | 0, _ + 1, c => .broken ⟨.trailingBytes, c.offset⟩
  | count + 1, left, c =>
    .andThen (Reader.codeEntry left c) fun ((body, left), c) =>
      (frameEntries next count left c).cons (.codeEntry body)

/-- A section of the given size, and what follows it. -/
def frameSection (next : Progress → Cursor → Framing) (s : Section) (size : Nat) (p : Progress)
    (c : Cursor) : Framing :=
  .andThen (p.enter s c.offset) fun p =>
    match s with
    | .code =>
      .andThen (Reader.codeCount size c) fun ((count, left), behind) =>
        let p := { p with codes? := some count }
        .andThen (p.checkCodes c.offset) fun _ => frameEntries (next p) count left behind
    | .start =>
      .andThen (Reader.take size c) fun (contents, behind) =>
        .andThen (Reader.sectionNumber "start" contents) fun n =>
          (next p behind).cons (.number s c.offset n)
    | .dataCount =>
      .andThen (Reader.take size c) fun (contents, behind) =>
        .andThen (Reader.sectionNumber "data count" contents) fun n =>
          (next { p with announced? := some n } behind).cons (.number s c.offset n)
    | s =>
      .andThen (Reader.take size c) fun (contents, behind) =>
        .andThen (Reader.u32 contents) fun (count, contents) =>
          let part := Part.entries s c.offset count contents
          if s = .functions then (next { p with functions? := some count } behind).cons part
          else if s = .data then
            let p := { p with data? := some count }
            .andThen (p.checkData behind.offset) fun _ => (next p behind).cons part
          else (next p behind).cons part

/-- A custom section, which has a name and may hold anything. -/
def frameCustom (next : Cursor → Framing) (size : Nat) (c : Cursor) : Framing :=
  .andThen (Reader.take size c) fun (contents, behind) =>
    .andThen (Reader.name contents) fun _ => next behind

/-- A section that no module has. -/
def frameUnknown (id size : Nat) (c : Cursor) : Framing :=
  .andThen (Reader.take size c) fun _ => .broken ⟨.unknownSection id, c.offset⟩

/-- The sections of a module from a cursor on. Every section takes bytes, so `fuel` sections are
enough for a cursor with at most `fuel` bytes. -/
def frameSections : Nat → Progress → Cursor → Framing
  | 0, p, c => frameEnd p c.offset
  | fuel + 1, p, c =>
    if c.rest.isEmpty then frameEnd p c.offset
    else
      .andThen (Reader.sectionHeader c) fun ((id, size), c) =>
        if id = 0 then frameCustom (frameSections fuel p) size c
        else
          match Section.ofId? id with
          | some s => frameSection (frameSections fuel) s size p c
          | none => frameUnknown id size c

/-- The sections of a binary of components, of which custom ones alone are known here. -/
def frameComponent : Nat → Cursor → Framing
  | 0, _ => .complete
  | fuel + 1, c =>
    if c.rest.isEmpty then .complete
    else
      .andThen (Reader.sectionHeader c) fun ((id, size), c) =>
        if id = 0 then frameCustom (frameComponent fuel) size c else frameUnknown id size c

/-- The parts of a binary. -/
def frame (bytes : List UInt8) : Framing :=
  .andThen (Reader.preamble ⟨0, bytes⟩) fun (isComponent, c) =>
    if isComponent then frameComponent bytes.length c else frameSections bytes.length {} c

end TreeWasm.Wasm
