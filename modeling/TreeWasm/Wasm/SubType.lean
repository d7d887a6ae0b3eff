-- SUMMARY: The types that a module may define: of functions, of structures, and of arrays.
import TreeWasm.Wasm.Type

/-!
# Defined types

A module defines types of functions, structures and arrays, each perhaps below another one. The
fields of structures and the elements of arrays may hold less than a value.
-/

namespace TreeWasm.Wasm

/-! ## Fields -/

/-- What a field holds. -/
inductive Storage where
  | i8
  | i16
  | value (type : ValType)
deriving DecidableEq, Repr, Inhabited

namespace Storage

/-- The field holds less than a value of its own. -/
def isPacked : Storage → Bool
  | .i8 | .i16 => true
  | .value _ => false

/-- The type of a value that is read from the field or put into it. -/
def unpacked : Storage → ValType
  | .i8 | .i16 => .i32
  | .value t => t

def mapHeapM [Monad m] (f : HeapType → m HeapType) : Storage → m Storage
  | .i8 => return .i8
  | .i16 => return .i16
  | .value t => return .value (← t.mapHeapM f)

end Storage

structure Field where
  storage : Storage
  isMutable : Bool
deriving DecidableEq, Repr, Inhabited

namespace Field

def mapHeapM [Monad m] (f : HeapType → m HeapType) (t : Field) : m Field := do
  return { t with storage := ← t.storage.mapHeapM f }

end Field

/-! ## Definitions -/

/-- What a module defines a type to be. -/
inductive Composite where
  | func (type : FuncType)
  | struct (fields : List Field)
  | array (element : Field)
deriving DecidableEq, Repr, Inhabited

namespace Composite

def mapHeapM [Monad m] (f : HeapType → m HeapType) : Composite → m Composite
  | .func t => return .func (← t.mapHeapM f)
  | .struct fields => return .struct (← fields.mapM (·.mapHeapM f))
  | .array element => return .array (← element.mapHeapM f)

/-- The kind of the type, without what it consists of. -/
def outline : Composite → String
  | .func _ => "(func ...)"
  | .struct _ => "(struct ...)"
  | .array _ => "(array ...)"

/-- How much a use of the type counts against the limit for a module. -/
def weight : Composite → Nat
  | .func t => 2 + t.params.length + t.results.length
  | .struct fields => 2 + 2 * fields.length
  | .array _ => 3

end Composite

/-- A type with its place under another one. -/
structure SubType where
  isFinal : Bool
  super? : Option HeapType
  composite : Composite
deriving DecidableEq, Repr, Inhabited

namespace SubType

def outline (t : SubType) : String :=
  if t.isFinal && t.super?.isNone then t.composite.outline
  else "(sub " ++ (if t.isFinal then "final " else "") ++ t.composite.outline ++ ")"

def mapHeapM [Monad m] (f : HeapType → m HeapType) (t : SubType) : m SubType := do
  return ⟨t.isFinal, ← t.super?.mapM f, ← t.composite.mapHeapM f⟩

end SubType

end TreeWasm.Wasm
