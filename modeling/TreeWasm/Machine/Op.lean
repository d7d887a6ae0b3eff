-- SUMMARY: The binary machine operations: integer and floating-point arithmetic at two widths each.
import TreeWasm.Machine.Type

/-!
# Machine operations

Integers have five operations, division and remainder being signed; floating-point numbers have
no remainder. Each exists at two widths and combines two operands of its type into a result of
the same type.
-/

namespace TreeWasm

inductive Width where
  | w32
  | w64
deriving DecidableEq, Repr, Inhabited

inductive IntOp where
  | add
  | sub
  | mul
  | divS
  | remS
deriving DecidableEq, Repr, Inhabited

inductive FloatOp where
  | add
  | sub
  | mul
  | div
deriving DecidableEq, Repr, Inhabited

inductive MachineOp where
  | int (width : Width) (op : IntOp)
  | float (width : Width) (op : FloatOp)
deriving DecidableEq, Repr, Inhabited

namespace IntOp

def all : List IntOp := [.add, .sub, .mul, .divS, .remS]

def name : IntOp → String
  | .add => "add"
  | .sub => "sub"
  | .mul => "mul"
  | .divS => "div_s"
  | .remS => "rem_s"

/-- The place of the operation after the addition of its width, in the opcodes of the target. -/
def codeOffset : IntOp → UInt8
  | .add => 0
  | .sub => 1
  | .mul => 2
  | .divS => 3
  | .remS => 5

end IntOp

namespace FloatOp

def all : List FloatOp := [.add, .sub, .mul, .div]

def name : FloatOp → String
  | .add => "add"
  | .sub => "sub"
  | .mul => "mul"
  | .div => "div"

def codeOffset : FloatOp → UInt8
  | .add => 0
  | .sub => 1
  | .mul => 2
  | .div => 3

end FloatOp

namespace MachineOp

def all : List MachineOp :=
  IntOp.all.map (.int .w32) ++ IntOp.all.map (.int .w64) ++
    FloatOp.all.map (.float .w32) ++ FloatOp.all.map (.float .w64)

/-- The type of both operands and of the result. -/
def type : MachineOp → MachineType
  | .int .w32 _ => .word32
  | .int .w64 _ => .word64
  | .float .w32 _ => .float32
  | .float .w64 _ => .float64

def valType : MachineOp → Wasm.ValType
  | .int .w32 _ => .i32
  | .int .w64 _ => .i64
  | .float .w32 _ => .f32
  | .float .w64 _ => .f64

def name (op : MachineOp) : String :=
  op.valType.name ++ "." ++
    match op with
    | .int _ op => op.name
    | .float _ op => op.name

/-- The byte that stands for the operation in a binary. -/
def code : MachineOp → UInt8
  | .int .w32 op => 0x6a + op.codeOffset
  | .int .w64 op => 0x7c + op.codeOffset
  | .float .w32 op => 0x92 + op.codeOffset
  | .float .w64 op => 0xa0 + op.codeOffset

def ofName? (s : String) : Option MachineOp := all.find? (·.name == s)

def ofCode? (b : UInt8) : Option MachineOp := all.find? (·.code == b)

theorem valType?_type (op : MachineOp) : op.type.valType? = some op.valType := by
  rcases op with ⟨_ | _, _⟩ | ⟨_ | _, _⟩ <;> rfl

theorem ofName?_name (op : MachineOp) : ofName? op.name = some op := by
  rcases op with ⟨_ | _, _ | _⟩ | ⟨_ | _, _ | _⟩ <;> decide

theorem ofCode?_code (op : MachineOp) : ofCode? op.code = some op := by
  rcases op with ⟨_ | _, _ | _⟩ | ⟨_ | _, _ | _⟩ <;> decide

end MachineOp

end TreeWasm
