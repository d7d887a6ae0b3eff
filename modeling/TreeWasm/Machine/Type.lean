-- SUMMARY: Machine types: the primitive representations of the target, and the sentinel of code that leaves no value.
import TreeWasm.Wasm.Type

/-!
# Machine types

Four machine types stand for runtime values. The fifth, `unreachable`, has no value: it is the
type of code that never completes and also of code that completes and leaves nothing.
-/

namespace TreeWasm

inductive MachineType where
  | word32
  | word64
  | float32
  | float64
  | unreachable
deriving DecidableEq, Repr, Inhabited

namespace MachineType

def all : List MachineType := [.word32, .word64, .float32, .float64, .unreachable]

def name : MachineType → String
  | .word32 => "i32"
  | .word64 => "i64"
  | .float32 => "f32"
  | .float64 => "f64"
  | .unreachable => "unreachable"

/-- The value type of the target, if the machine type has values. It is also the block type:
without one, a block is empty. -/
def valType? : MachineType → Option Wasm.ValType
  | .word32 => some .i32
  | .word64 => some .i64
  | .float32 => some .f32
  | .float64 => some .f64
  | .unreachable => none

def ofName? (s : String) : Option MachineType := all.find? (·.name == s)

theorem ofName?_name (t : MachineType) : ofName? t.name = some t := by
  cases t <;> decide

/-- Machine types stand for numbers only. -/
theorem ref?_of_valType? {t : MachineType} {v : Wasm.ValType} (h : t.valType? = some v) :
    v.ref? = none := by
  cases t <;> cases h <;> rfl

end MachineType

end TreeWasm
