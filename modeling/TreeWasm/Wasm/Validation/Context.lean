-- SUMMARY: What the sections of a module say that initial values and function bodies depend on.
import TreeWasm.Wasm.Fault
import TreeWasm.Wasm.Reader.Type
import TreeWasm.Wasm.TypeTable

/-!
# Contexts

A context has the types, functions, tables, memories, globals, tags and segments of a module, each
in the order of its index space, imports first. The operators of a body look things up in it, and a
missing one is a fault that names the index.
-/

namespace TreeWasm.Wasm.Validation

structure Context where
  types : Types := #[]
  /-- For each function the index of its type. -/
  functions : Array Nat := #[]
  tables : Array TableType := #[]
  memories : Array MemoryType := #[]
  globals : Array GlobalType := #[]
  /-- For each tag the index of its type. -/
  tags : Array Nat := #[]
  /-- For each element segment the type of its elements. -/
  elements : Array RefType := #[]
  /-- The number of data segments, if it is announced. -/
  dataCount? : Option Nat := none
  /-- The functions that a body may take references of. -/
  referable : List Nat := []
deriving Repr, Inhabited

/-- What is at an index, or else a fault. -/
def orFault (a : Option α) (cause : Cause) : Except Cause α :=
  match a with
  | some a => .ok a
  | none => .error cause

/-- Put a cause where it was found. -/
def located (offset : Nat) (r : Except Cause α) : Except Fault α := r.mapError (⟨·, offset⟩)

namespace Context

/-! ## Types -/

/-- What a reference points to, with a defined type by its first index. -/
def resolveHeap (c : Context) : HeapType → Except Cause HeapType
  | .kind _ true => .error (.sharedUnsupported "reference types")
  | .kind .cont false | .kind .noCont false =>
    .error (.unsupported "continuation refs not supported without the stack switching feature")
  | .exact _ => .error (.unsupported "custom descriptors required for exact reference types")
  | .defined index => do
    let first ← orFault (c.types.first? index.toNat) (.unknown .type index.toNat)
    return .defined (.ofNat first)
  | h => .ok h

def resolveRef (c : Context) (t : RefType) : Except Cause RefType := t.mapHeapM c.resolveHeap

def resolve (c : Context) (t : ValType) : Except Cause ValType := t.mapHeapM c.resolveHeap

/-- Numbers and vectors point to nothing. -/
theorem resolve_of_ref?_eq_none {t : ValType} (h : t.ref? = none) (c : Context) :
    c.resolve t = .ok t := by
  cases t with
  | ref => cases h
  | _ => rfl

/-- The function type at an index. -/
def arrow? (c : Context) (index : Nat) : Option FuncType := do
  match ← c.types.composite? index with
  | .func t => return t
  | _ => none

/-- The function type at an index, where the module says that there is one. -/
def declaredArrow (c : Context) (index : Nat) : Except Cause FuncType := do
  match ← orFault (c.types.composite? index) (.unknown .type index) with
  | .func t => return t
  | _ => throw (.notFunctionType index)

def subTypeHere (c : Context) (index : Nat) : Except Cause SubType :=
  orFault (c.types.subType? index) .unknownTypeHere

/-- The function type at an index that an operator names. -/
def arrowHere (c : Context) (index : Nat) : Except Cause FuncType := do
  let t ← c.subTypeHere index
  match t.composite with
  | .func t => return t
  | _ => throw (.notTypeOf "func" index t)

/-- The fields of the structure type at an index. -/
def fieldsHere (c : Context) (index : Nat) : Except Cause (List Field) := do
  let t ← c.subTypeHere index
  match t.composite with
  | .struct fields => return fields
  | _ => throw (.notTypeOf "struct" index t)

def fieldHere (c : Context) (index field : Nat) : Except Cause Field := do
  orFault (← c.fieldsHere index)[field]? .unknownField

/-- What the elements of the array type at an index are. -/
def elementHere (c : Context) (index : Nat) : Except Cause Field := do
  let t ← c.subTypeHere index
  match t.composite with
  | .array element => return element
  | _ => throw (.notTypeOf "array" index t)

/-- A reference to the type at an index. -/
def refTo (c : Context) (nullable : Bool) (index : Nat) : Except Cause ValType := do
  return .ref ⟨nullable, ← c.resolveHeap (.defined (.ofNat index))⟩

/-! ## Other things -/

/-- The type of the function at an index, where the module names it. -/
def declaredFunction (c : Context) (index : Nat) : Except Cause FuncType := do
  c.declaredArrow (← orFault c.functions[index]? (.unknown .func index))

/-- The type of the function at an index that an operator names. -/
def functionHere (c : Context) (index : Nat) : Except Cause FuncType := do
  c.arrowHere (← orFault c.functions[index]? (.unknownFunctionHere index))

def table (c : Context) (index : Nat) : Except Cause TableType :=
  orFault c.tables[index]? (.unknown .table index)

def memoryHere (c : Context) (index : Nat) : Except Cause MemoryType :=
  orFault c.memories[index]? (.unknownMemoryHere index)

/-- The type of addresses of the memory at an index. -/
def addressHere (c : Context) (index : Nat) : Except Cause ValType := do
  return (← c.memoryHere index).limits.addressType

def globalHere (c : Context) (index : Nat) : Except Cause GlobalType :=
  orFault c.globals[index]? .unknownGlobalHere

/-- The type of what comes with exceptions of a tag. -/
def tagHere (c : Context) (index : Nat) : Except Cause FuncType := do
  orFault (c.arrow? (← orFault c.tags[index]? (.unknown .tag index))) (.unknown .tag index)

def elementSegment (c : Context) (index : Nat) : Except Cause RefType :=
  orFault c.elements[index]? (.unknown .element index)

/-- The data segment exists. Segments come behind the bodies, so their number must be announced. -/
def checkDataSegment (c : Context) (index : Nat) : Except Cause Unit :=
  match c.dataCount? with
  | none => .error .missingDataCount
  | some n => if index < n then .ok () else .error (.unknownData index)

end Context

end TreeWasm.Wasm.Validation
