-- SUMMARY: The contents of a binary module, and its bytes.
import TreeWasm.Wasm.Operator

/-!
# Images

An `Image` holds what a binary module says: its function types, its functions, their exports,
their code, and the names it gives to them. `Image.encode` writes it section by section. A section
without entries is left out.
-/

namespace TreeWasm.Wasm

/-! ## Runs of locals -/

/-- A run of local slots of one type. -/
structure LocalRun where
  count : Nat
  type : ValType
deriving DecidableEq, Repr, Inhabited

namespace LocalRun

/-- Put one slot in front of runs. -/
def prepend (type : ValType) : List LocalRun → List LocalRun
  | [] => [⟨1, type⟩]
  | run :: runs =>
    if run.type = type then ⟨run.count + 1, type⟩ :: runs else ⟨1, type⟩ :: run :: runs

/-- The runs of a list of slots: neighbours of one type share a run. -/
def group (types : List ValType) : List LocalRun := types.foldr prepend []

/-- The slots that runs stand for. -/
def expand (runs : List LocalRun) : List ValType :=
  runs.flatMap fun run => List.replicate run.count run.type

theorem expand_prepend (type : ValType) (runs : List LocalRun) :
    expand (prepend type runs) = type :: expand runs := by
  cases runs with
  | nil => simp [prepend, expand]
  | cons run runs =>
    by_cases h : run.type = type <;> simp [prepend, expand, h, List.replicate_succ]

theorem expand_group (types : List ValType) : expand (group types) = types := by
  induction types with
  | nil => rfl
  | cons t ts ih =>
    show expand (prepend t (group ts)) = t :: ts
    rw [expand_prepend, ih]

end LocalRun

/-! ## Images -/

/-- The code of a function: its local slots in runs, and its operators up to the last `finish`. -/
structure Code where
  locals : List LocalRun
  body : List Operator
deriving DecidableEq, Repr, Inhabited

/-- A function made visible under a name. -/
structure Export where
  name : String
  function : Nat
deriving DecidableEq, Repr, Inhabited

structure Image where
  types : List FuncType
  /-- For each function the index of its type. -/
  functions : List Nat
  exports : List Export
  codes : List Code
  /-- Function indices with the names that tools show for them. -/
  names : List (Nat × String)
deriving DecidableEq, Repr, Inhabited

/-! ## Bytes -/

/-- A counted sequence. -/
def encodeVec (entries : List (List UInt8)) : List UInt8 :=
  Leb128.unsigned entries.length ++ entries.flatten

/-- Bytes behind their number. -/
def encodeSized (bytes : List UInt8) : List UInt8 := Leb128.unsigned bytes.length ++ bytes

def encodeName (name : String) : List UInt8 := encodeSized name.toUTF8.toList

def encodeSection (id : UInt8) (contents : List UInt8) : List UInt8 := id :: encodeSized contents

/-- A section with a counted sequence of entries, or nothing if there are none. -/
def encodeEntries (id : UInt8) (entries : List (List UInt8)) : List UInt8 :=
  if entries.isEmpty then [] else encodeSection id (encodeVec entries)

def FuncType.encode (t : FuncType) : List UInt8 :=
  0x60 :: (encodeVec (t.params.map ValType.encode) ++ encodeVec (t.results.map ValType.encode))

def Export.encode (e : Export) : List UInt8 :=
  encodeName e.name ++ 0x00 :: Leb128.unsigned e.function

def LocalRun.encode (run : LocalRun) : List UInt8 := Leb128.unsigned run.count ++ run.type.encode

/-- The bytes of a function's code without their number. -/
def Code.encode (c : Code) : List UInt8 :=
  encodeVec (c.locals.map LocalRun.encode) ++ c.body.flatMap Operator.encode ++
    Operator.finish.encode

/-- The section of names: a custom section whose first part names functions. -/
def encodeNames (names : List (Nat × String)) : List UInt8 :=
  if names.isEmpty then []
  else
    encodeSection 0x00 (encodeName "name" ++ encodeSection 0x01
      (encodeVec (names.map fun (index, name) => Leb128.unsigned index ++ encodeName name)))

/-- The magic number and the version that every binary module starts with. -/
def header : List UInt8 := [0x00, 0x61, 0x73, 0x6d, 0x01, 0x00, 0x00, 0x00]

namespace Image

/-- The bytes of a module. Every size and count in them is meant to be an integer of 32 bits, and a
module for which that is not so cannot be written; it is up to the caller to rule this out, since
larger numbers are put down here all the same. -/
def encode (image : Image) : List UInt8 :=
  header ++
    encodeEntries 0x01 (image.types.map FuncType.encode) ++
    encodeEntries 0x03 (image.functions.map Leb128.unsigned) ++
    encodeEntries 0x07 (image.exports.map Export.encode) ++
    encodeEntries 0x0a (image.codes.map (encodeSized ·.encode)) ++
    encodeNames image.names

end Image

end TreeWasm.Wasm
