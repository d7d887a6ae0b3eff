-- SUMMARY: Value types and arithmetic operators of the typed tree language, with their names and ordinals.

/-!
# Value types and arithmetic operators

Both are closed sets. A member has a name, by which documents and listings show it, and an
ordinal, its place in the declaration order.
-/

namespace TreeWasm

/-! ## Value types -/

/-- The types that expressions, parameters and local slots are declared with. -/
inductive ValueType where
  | int32
  | float64
  | bool
  | str
  | union
  | ptr
  | nothing
  | never
  | int64
  | float32
deriving DecidableEq, Repr, Inhabited

namespace ValueType

/-- All value types, in the order of their ordinals. -/
def all : List ValueType :=
  [.int32, .float64, .bool, .str, .union, .ptr, .nothing, .never, .int64, .float32]

def name : ValueType → String
  | .int32 => "Int32"
  | .float64 => "Float64"
  | .bool => "Bool"
  | .str => "Str"
  | .union => "Union"
  | .ptr => "Ptr"
  | .nothing => "Nothing"
  | .never => "Never"
  | .int64 => "Int64"
  | .float32 => "Float32"

def ordinal (t : ValueType) : Nat := all.idxOf t

def ofOrdinal? (n : Nat) : Option ValueType := all[n]?

def ofName? (s : String) : Option ValueType := all.find? (·.name == s)

theorem name_injective {s t : ValueType} (h : s.name = t.name) : s = t := by
  revert h
  cases s <;> cases t <;> decide

theorem ofOrdinal?_ordinal (t : ValueType) : ofOrdinal? t.ordinal = some t := by
  cases t <;> decide

theorem ofName?_name (t : ValueType) : ofName? t.name = some t := by
  cases t <;> decide

end ValueType

/-! ## Arithmetic operators -/

/-- The operators of binary expressions. -/
inductive Arith where
  | add
  | sub
  | mul
  | div
  | mod
deriving DecidableEq, Repr, Inhabited

namespace Arith

/-- All operators, in the order of their ordinals. -/
def all : List Arith := [.add, .sub, .mul, .div, .mod]

def name : Arith → String
  | .add => "Add"
  | .sub => "Sub"
  | .mul => "Mul"
  | .div => "Div"
  | .mod => "Mod"

def ordinal (op : Arith) : Nat := all.idxOf op

def ofOrdinal? (n : Nat) : Option Arith := all[n]?

def ofName? (s : String) : Option Arith := all.find? (·.name == s)

theorem name_injective {s t : Arith} (h : s.name = t.name) : s = t := by
  revert h
  cases s <;> cases t <;> decide

theorem ofOrdinal?_ordinal (op : Arith) : ofOrdinal? op.ordinal = some op := by
  cases op <;> decide

theorem ofName?_name (op : Arith) : ofName? op.name = some op := by
  cases op <;> decide

end Arith

end TreeWasm
