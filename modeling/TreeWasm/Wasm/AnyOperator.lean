-- SUMMARY: The operators that function bodies and initial values of any binary module may consist of.
import TreeWasm.Wasm.SubType
import TreeWasm.Wasm.Operator

/-!
# Operators of any module

`Operator` has the operators that this library writes. `AnyOperator` adds the other ones of the
format. The many that take operands of fixed types and give back fixed types share the constructor
`plain`, and the tables of `PlainOp` say which they are.
-/

namespace TreeWasm.Wasm

/-! ## Arguments -/

/-- What a frame takes and leaves: nothing and at most one value, or what a type of the module
says. -/
inductive BlockType where
  | result (type : Option ValType)
  | typed (index : Nat)
deriving DecidableEq, Repr, Inhabited

/-- Where an operator reaches into a memory. The alignment is a logarithm. -/
structure MemoryArg where
  alignment : Nat
  memory : Nat
  offset : Nat
deriving DecidableEq, Repr, Inhabited

/-- A way out of a frame for exceptions: for those with a tag, or for all without one. A reference
to the exception may come along. -/
structure Handler where
  tag? : Option Nat
  isReferred : Bool
  label : Nat
deriving DecidableEq, Repr, Inhabited

/-- How a field that holds less than a value is read. -/
inductive Extension where
  | whole
  | signed
  | unsigned
deriving DecidableEq, Repr, Inhabited

namespace Extension

def suffix : Extension → String
  | .whole => ""
  | .signed => "_s"
  | .unsigned => "_u"

end Extension

/-! ## Plain operators -/

/-- How an operator uses a memory: its natural alignment, and whether no smaller one will do. -/
structure MemoryUse where
  alignment : Nat
  isExact : Bool := false
deriving DecidableEq, Repr, Inhabited

/-- An operator with fixed types. An address comes below the operands it takes. -/
structure PlainOp where
  name : String
  takes : List ValType
  gives : List ValType
  memory? : Option MemoryUse := none
  /-- The number of lanes of which it names one. -/
  lanes? : Option Nat := none
deriving DecidableEq, Repr, Inhabited

/-! ## Operators -/

inductive AnyOperator where
  | basic (op : Operator)
  -- control
  | unreachable
  | nop
  | block (type : BlockType)
  | loop (type : BlockType)
  | cond (type : BlockType)
  | branchIf (depth : Nat)
  | branchTable (depths : List Nat) (otherwise : Nat)
  | leave
  | call (function : Nat)
  | callIndirect (type table : Nat)
  | callRef (type : Nat)
  | tailCall (function : Nat)
  | tailCallIndirect (type table : Nat)
  | tailCallRef (type : Nat)
  | throwTag (tag : Nat)
  | throwRef
  | tryTable (type : BlockType) (handlers : List Handler)
  -- values
  | select
  | selectTyped (types : List ValType)
  | localSet (index : Nat)
  | localTee (index : Nat)
  | globalGet (index : Nat)
  | globalSet (index : Nat)
  | plain (op : PlainOp) (arg : Option MemoryArg) (lane : Nat)
  | shuffle (lanes : List Nat)
  | fence
  -- tables and memories
  | tableGet (table : Nat)
  | tableSet (table : Nat)
  | tableGrow (table : Nat)
  | tableSize (table : Nat)
  | tableFill (table : Nat)
  | tableInit (segment table : Nat)
  | tableCopy (target source : Nat)
  | elementDrop (segment : Nat)
  | memorySize (memory : Nat)
  | memoryGrow (memory : Nat)
  | memoryFill (memory : Nat)
  | memoryInit (segment memory : Nat)
  | memoryCopy (target source : Nat)
  | dataDrop (segment : Nat)
  -- references
  | refNull (heap : HeapType)
  | refIsNull
  | refFunc (function : Nat)
  | refEq
  | refAsNonNull
  | branchOnNull (depth : Nat)
  | branchOnNonNull (depth : Nat)
  | refTest (type : RefType)
  | refCast (type : RefType)
  | branchOnCast (depth : Nat) (source target : RefType)
  | branchOnCastFail (depth : Nat) (source target : RefType)
  | fromHost
  | toHost
  | refI31
  | i31Get (extension : Extension)
  -- structures and arrays
  | structNew (type : Nat)
  | structNewDefault (type : Nat)
  | structGet (extension : Extension) (type field : Nat)
  | structSet (type field : Nat)
  | arrayNew (type : Nat)
  | arrayNewDefault (type : Nat)
  | arrayNewFixed (type size : Nat)
  | arrayNewData (type segment : Nat)
  | arrayNewElement (type segment : Nat)
  | arrayGet (extension : Extension) (type : Nat)
  | arraySet (type : Nat)
  | arrayLength
  | arrayFill (type : Nat)
  | arrayCopy (target source : Nat)
  | arrayInitData (type segment : Nat)
  | arrayInitElement (type segment : Nat)
  /-- An operator of an extension of the format that modules may not use. -/
  | disabled (name feature : String)
  /-- An operator that goes on with a frame for exceptions of a kind that modules may not open. -/
  | handler (name : String)
deriving DecidableEq, Repr, Inhabited

/-! ## Names -/

def Operator.name : Operator → String
  | .constI32 _ => "i32.const"
  | .constF64 _ => "f64.const"
  | .localGet _ => "local.get"
  | .block _ => "block"
  | .cond _ => "if"
  | .alternative => "else"
  | .finish => "end"
  | .branch _ => "br"
  | .drop => "drop"
  | .numeric op => op.name

namespace AnyOperator

def name : AnyOperator → String
  | .basic op => op.name
  | .unreachable => "unreachable"
  | .nop => "nop"
  | .block _ => "block"
  | .loop _ => "loop"
  | .cond _ => "if"
  | .branchIf _ => "br_if"
  | .branchTable _ _ => "br_table"
  | .leave => "return"
  | .call _ => "call"
  | .callIndirect _ _ => "call_indirect"
  | .callRef _ => "call_ref"
  | .tailCall _ => "return_call"
  | .tailCallIndirect _ _ => "return_call_indirect"
  | .tailCallRef _ => "return_call_ref"
  | .throwTag _ => "throw"
  | .throwRef => "throw_ref"
  | .tryTable _ _ => "try_table"
  | .select => "select"
  | .selectTyped [_] => "typed_select"
  | .selectTyped _ => "typed_select_multi"
  | .localSet _ => "local.set"
  | .localTee _ => "local.tee"
  | .globalGet _ => "global.get"
  | .globalSet _ => "global.set"
  | .plain op _ _ => op.name
  | .shuffle _ => "i8x16.shuffle"
  | .fence => "atomic.fence"
  | .tableGet _ => "table.get"
  | .tableSet _ => "table.set"
  | .tableGrow _ => "table.grow"
  | .tableSize _ => "table.size"
  | .tableFill _ => "table.fill"
  | .tableInit _ _ => "table.init"
  | .tableCopy _ _ => "table.copy"
  | .elementDrop _ => "elem.drop"
  | .memorySize _ => "memory.size"
  | .memoryGrow _ => "memory.grow"
  | .memoryFill _ => "memory.fill"
  | .memoryInit _ _ => "memory.init"
  | .memoryCopy _ _ => "memory.copy"
  | .dataDrop _ => "data.drop"
  | .refNull _ => "ref.null"
  | .refIsNull => "ref.is_null"
  | .refFunc _ => "ref.func"
  | .refEq => "ref.eq"
  | .refAsNonNull => "ref.as_non_null"
  | .branchOnNull _ => "br_on_null"
  | .branchOnNonNull _ => "br_on_non_null"
  | .refTest t => if t.nullable then "ref.test_nullable" else "ref.test_non_null"
  | .refCast t => if t.nullable then "ref.cast_nullable" else "ref.cast_non_null"
  | .branchOnCast _ _ _ => "br_on_cast"
  | .branchOnCastFail _ _ _ => "br_on_cast_fail"
  | .fromHost => "any.convert_extern"
  | .toHost => "extern.convert_any"
  | .refI31 => "ref.i31"
  | .i31Get e => "i31.get" ++ e.suffix
  | .structNew _ => "struct.new"
  | .structNewDefault _ => "struct.new_default"
  | .structGet e _ _ => "struct.get" ++ e.suffix
  | .structSet _ _ => "struct.set"
  | .arrayNew _ => "array.new"
  | .arrayNewDefault _ => "array.new_default"
  | .arrayNewFixed _ _ => "array.new_fixed"
  | .arrayNewData _ _ => "array.new_data"
  | .arrayNewElement _ _ => "array.new_elem"
  | .arrayGet e _ => "array.get" ++ e.suffix
  | .arraySet _ => "array.set"
  | .arrayLength => "array.len"
  | .arrayFill _ => "array.fill"
  | .arrayCopy _ _ => "array.copy"
  | .arrayInitData _ _ => "array.init_data"
  | .arrayInitElement _ _ => "array.init_elem"
  | .disabled name _ => name
  | .handler name => name

end AnyOperator

end TreeWasm.Wasm
