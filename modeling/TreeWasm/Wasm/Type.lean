-- SUMMARY: WebAssembly value types and function types, and their bytes.
import TreeWasm.Wasm.Leb128

/-!
# WebAssembly types

Values are numbers, vectors and references. A reference points to things of a kind, or to values of
a type that a module defines, which it knows by its index. A function type lists the values that a
function takes and gives back.

Numbers and vectors have a code of one byte, and so have references to functions and to things of
the host that may be null. Any other reference spells out what it points to. `mapHeapM` reaches all
references inside a type.
-/

namespace TreeWasm.Wasm

/-! ## References -/

/-- A kind of things that references point to. -/
inductive HeapKind where
  | func
  | noFunc
  | host
  | noHost
  | any
  | eq
  | i31
  | struct
  | array
  | noAny
  | exn
  | noExn
  | cont
  | noCont
deriving DecidableEq, Repr, Hashable, Inhabited

namespace HeapKind

def all : List HeapKind :=
  [.func, .noFunc, .host, .noHost, .any, .eq, .i31, .struct, .array, .noAny, .exn, .noExn, .cont,
   .noCont]

/-- The byte that stands for the kind in a binary. -/
def code : HeapKind → UInt8
  | .func => 0x70
  | .noFunc => 0x73
  | .host => 0x6f
  | .noHost => 0x72
  | .any => 0x6e
  | .eq => 0x6d
  | .i31 => 0x6c
  | .struct => 0x6b
  | .array => 0x6a
  | .noAny => 0x71
  | .exn => 0x69
  | .noExn => 0x74
  | .cont => 0x68
  | .noCont => 0x75

def ofCode? (b : UInt8) : Option HeapKind := all.find? (·.code == b)

theorem ofCode?_code (k : HeapKind) : ofCode? k.code = some k := by
  cases k <;> decide

def name : HeapKind → String
  | .func => "func"
  | .noFunc => "nofunc"
  | .host => "extern"
  | .noHost => "noextern"
  | .any => "any"
  | .eq => "eq"
  | .i31 => "i31"
  | .struct => "struct"
  | .array => "array"
  | .noAny => "none"
  | .exn => "exn"
  | .noExn => "noexn"
  | .cont => "cont"
  | .noCont => "nocont"

/-- How a reference is called that may be null. -/
def referenceName : HeapKind → String
  | .func => "funcref"
  | .noFunc => "nullfuncref"
  | .host => "externref"
  | .noHost => "nullexternref"
  | .any => "anyref"
  | .eq => "eqref"
  | .i31 => "i31ref"
  | .struct => "structref"
  | .array => "arrayref"
  | .noAny => "nullref"
  | .exn => "exnref"
  | .noExn => "nullexnref"
  | .cont => "contref"
  | .noCont => "nullcontref"

end HeapKind

/-- What a reference points to. -/
inductive HeapType where
  /-- Things of a kind: those that threads may share, or the others. -/
  | kind (kind : HeapKind) (isShared : Bool)
  /-- Values of a type of the module, or of one below it. -/
  | defined (index : UInt32)
  /-- Values of a type of the module, and of none below it. -/
  | exact (index : UInt32)
deriving DecidableEq, Repr, Hashable, Inhabited

namespace HeapType

/-- The heap type of what no threads share. -/
@[match_pattern]
abbrev of (k : HeapKind) : HeapType := .kind k false

def name : HeapType → String
  | .kind k false => k.name
  | .kind k true => "(shared " ++ k.name ++ ")"
  | .defined _ => "$type"
  | .exact _ => "(exact $type)"

/-- The bytes of a heap type. An index is signed, so that none is a code. -/
def encode : HeapType → List UInt8
  | .kind k false => [k.code]
  | .kind k true => [0x65, k.code]
  | .defined index => Leb128.signed index.toNat
  | .exact index => 0x62 :: Leb128.unsigned index.toNat

end HeapType

structure RefType where
  nullable : Bool
  heap : HeapType
deriving DecidableEq, Repr, Hashable, Inhabited

namespace RefType

def name : RefType → String
  | ⟨true, .kind k false⟩ => k.referenceName
  | ⟨true, .kind k true⟩ => "(shared " ++ k.referenceName ++ ")"
  | ⟨true, heap⟩ => "(ref null " ++ heap.name ++ ")"
  | ⟨false, heap⟩ => "(ref " ++ heap.name ++ ")"

def encode : RefType → List UInt8
  | ⟨true, .kind .func false⟩ => [HeapKind.func.code]
  | ⟨true, .kind .host false⟩ => [HeapKind.host.code]
  | ⟨true, heap⟩ => 0x63 :: heap.encode
  | ⟨false, heap⟩ => 0x64 :: heap.encode

def mapHeapM [Monad m] (f : HeapType → m HeapType) (t : RefType) : m RefType := do
  return { t with heap := ← f t.heap }

end RefType

/-! ## Values -/

inductive ValType where
  | i32
  | i64
  | f32
  | f64
  | v128
  | ref (type : RefType)
deriving DecidableEq, Repr, Hashable, Inhabited

namespace ValType

def funcref : ValType := .ref ⟨true, .of .func⟩

def externref : ValType := .ref ⟨true, .of .host⟩

/-- The reference type, if values of the type are references. -/
def ref? : ValType → Option RefType
  | .ref t => some t
  | _ => none

def name : ValType → String
  | .i32 => "i32"
  | .i64 => "i64"
  | .f32 => "f32"
  | .f64 => "f64"
  | .v128 => "v128"
  | .ref t => t.name

/-- The bytes that stand for the type in a binary. -/
def encode : ValType → List UInt8
  | .i32 => [0x7f]
  | .i64 => [0x7e]
  | .f32 => [0x7d]
  | .f64 => [0x7c]
  | .v128 => [0x7b]
  | .ref t => t.encode

/-- The type of numbers or vectors that a byte stands for. -/
def ofCode? (b : UInt8) : Option ValType := [i32, i64, f32, f64, v128].find? (·.encode == [b])

/-- A slot of the type has a value before anything is stored in it. -/
def hasDefault (t : ValType) : Bool := (t.ref?.map (·.nullable)).getD true

def mapHeapM [Monad m] (f : HeapType → m HeapType) : ValType → m ValType
  | .ref t => return .ref (← t.mapHeapM f)
  | t => return t

end ValType

/-! ## Functions -/

structure FuncType where
  params : List ValType
  results : List ValType
deriving DecidableEq, Repr, Hashable, Inhabited

namespace FuncType

/-- The function neither takes nor gives back values. -/
def isVoid (t : FuncType) : Bool := t.params.isEmpty && t.results.isEmpty

def mapHeapM [Monad m] (f : HeapType → m HeapType) (t : FuncType) : m FuncType := do
  return ⟨← t.params.mapM (·.mapHeapM f), ← t.results.mapM (·.mapHeapM f)⟩

end FuncType

end TreeWasm.Wasm
