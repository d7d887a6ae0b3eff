-- SUMMARY: The registry of functions that await encoding, with its table of function types.
import Std.Data.HashMap
import TreeWasm.Machine.Node
import TreeWasm.Wasm.Type

/-!
# Registry

A registry holds functions in the order in which they were added, and the function types they
use, each once. A lookup table gives the index of a type. Indices never change: types and
functions are only ever added at the end. Names are not checked for collisions.

Indices and counts are integers of 32 bits. Nothing keeps a registry from growing beyond their
range; from there on they start again at zero.
-/

namespace TreeWasm

/-- A function that awaits encoding. -/
structure Registered where
  name : String
  typeIndex : UInt32
  /-- The slots after the parameters. -/
  locals : List Wasm.ValType
  body : Node
deriving Repr, Inhabited

structure Registry where
  types : Array Wasm.FuncType := #[]
  /-- The index of each type in the table. -/
  typeIndices : Std.HashMap Wasm.FuncType UInt32 := {}
  functions : Array Registered := #[]

namespace Registry

/-! ## Types -/

/-- The index of a type, if it is in the table. -/
def findType? (r : Registry) (type : Wasm.FuncType) : Option UInt32 := r.typeIndices[type]?

/-- The type with an index. -/
def type? (r : Registry) (index : UInt32) : Option Wasm.FuncType := r.types[index.toNat]?

def typeCount (r : Registry) : UInt32 := .ofNat r.types.size

/-- Add a type unless it is there. Gives back its index. -/
def addType (r : Registry) (type : Wasm.FuncType) : UInt32 × Registry :=
  match r.findType? type with
  | some index => (index, r)
  | none =>
    (r.typeCount, { r with
      types := r.types.push type
      typeIndices := r.typeIndices.insert type r.typeCount })

theorem addType_of_findType? {r : Registry} {type : Wasm.FuncType} {index : UInt32}
    (h : r.findType? type = some index) : r.addType type = (index, r) := by
  simp only [addType, h]

/-- Right after a type was added, its index is found. -/
theorem findType?_addType (r : Registry) (type : Wasm.FuncType) :
    (r.addType type).2.findType? type = some (r.addType type).1 := by
  cases h : r.findType? type with
  | some index => simp only [addType, h]
  | none =>
    simp only [addType, h]
    exact Std.HashMap.getElem?_insert_self

/-- Adding a type leaves the functions alone. -/
@[simp] theorem functions_addType (r : Registry) (type : Wasm.FuncType) :
    (r.addType type).2.functions = r.functions := by
  unfold addType
  split <;> rfl

/-! ## Functions -/

def functionCount (r : Registry) : UInt32 := .ofNat r.functions.size

/-- Add a function at the end. Gives back its index. -/
def addFunction (r : Registry) (name : String) (type : Wasm.FuncType)
    (locals : List Wasm.ValType) (body : Node) : UInt32 × Registry :=
  let (typeIndex, r) := r.addType type
  (r.functionCount, { r with functions := r.functions.push ⟨name, typeIndex, locals, body⟩ })

/-- The index of the first function with a name. -/
def functionIndex? (r : Registry) (name : String) : Option UInt32 :=
  (r.functions.findIdx? (·.name == name)).map .ofNat

/-- The names of the functions, in order. -/
def names (r : Registry) : List String := r.functions.toList.map Registered.name

/-- The index of a new function is the number of those before it. -/
theorem addFunction_index (r : Registry) (name : String) (type : Wasm.FuncType)
    (locals : List Wasm.ValType) (body : Node) :
    (r.addFunction name type locals body).1 = r.functionCount := by
  simp [addFunction, functionCount]

theorem names_addFunction (r : Registry) (name : String) (type : Wasm.FuncType)
    (locals : List Wasm.ValType) (body : Node) :
    (r.addFunction name type locals body).2.names = r.names ++ [name] := by
  simp [addFunction, names]

end Registry

end TreeWasm
