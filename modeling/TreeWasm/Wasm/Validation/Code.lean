-- SUMMARY: Checking the bytes of operators: those of function bodies and those of initial values.
import TreeWasm.Wasm.Reader.Operator
import TreeWasm.Wasm.Validation.Body

/-!
# Checking code

The operators of a body or of an initial value are read and checked one by one, up to the end of
their bytes. A fault of an operator lies where it starts. Whether it may stand at its place at all
is seen from its code alone, and such a fault lies behind that code.
-/

namespace TreeWasm.Wasm.Validation

/-! ## Nesting -/

/-- Whether an operator opens a frame, and then whether it is one that may have an alternative. -/
def opens? : AnyOperator → Option Bool
  | .basic (.block _) | .block _ | .loop _ | .tryTable _ _ => some false
  | .basic (.cond _) | .cond _ => some true
  | _ => none

/-- The operator may stand in a frame, which may or may not have an alternative. -/
def checkNesting (mayTurn : Bool) : AnyOperator → Except Cause Unit
  | .basic .alternative => if mayTurn then .ok () else .error .alternativeOutsideCond
  | .handler name => .error (.handlerOutsideFrame name)
  | _ => .ok ()

/-- The open frames behind an operator. For each it is kept whether it may have an alternative. -/
def nest (frames : List Bool) : AnyOperator → List Bool
  | .basic .finish => frames.tail
  | .basic .alternative => false :: frames.tail
  | op =>
    match opens? op with
    | some mayTurn => mayTurn :: frames
    | none => frames

/-- Pass over operators until no frame is open. Every operator takes bytes, so `fuel` operators are
enough for `fuel` bytes. -/
def skipOperators : Nat → List Bool → Reader Unit
  | _, [] => return
  | 0, _ => do Reader.fail .unexpectedEnd (← Reader.offset)
  | fuel + 1, frame :: frames => do
    let start ← Reader.offset
    let op ← Reader.operator
    match checkNesting frame op with
    | .ok () => skipOperators fuel (nest (frame :: frames) op)
    | .error cause => Reader.fail cause (start + 1)

/-- The operators of an initial value, as a cursor of their own. -/
def initialValue : Reader Cursor := do
  let bytes := (← get).rest.length
  Reader.span (skipOperators (bytes + 1) [false])

/-! ## Operators -/

/-- Check the operators up to the end of their bytes. What an operator needs besides its operands is
for `accept` to check, which may also add to the scope. Every operator takes bytes, so there are at
most `fuel` operators in `fuel` bytes. -/
def checkOperators (accept : Scope → AnyOperator → Except Cause Scope) (s : Scope) :
    Nat → Controls → Cursor → Except Fault Scope
  | fuel, cs, c =>
    if c.rest.isEmpty then
      if cs.isEmpty then .ok s else .error ⟨.missingEnd, c.offset⟩
    else
      match fuel, cs with
      | 0, _ => .error ⟨.unexpectedEnd, c.offset⟩
      | _, [] => .error ⟨.operatorsAfterEnd, c.offset⟩
      | fuel + 1, frame :: _ => do
        let (op, behind) ← Reader.operator c
        located (c.offset + 1) (checkNesting (frame.construct = .cond) op)
        let s ← located c.offset (accept s op)
        let cs ← located c.offset (step s cs op)
        checkOperators accept s fuel cs behind

/-! ## Initial values -/

/-- An operator as a visitor of it is called. -/
def visitName (op : AnyOperator) : String :=
  "visit_" ++ String.ofList (op.name.toList.map fun c => if c = '.' then '_' else c)

/-- The numeric operators of this library that may stand in initial values. -/
def isConstantOp : MachineOp → Bool
  | .int _ .add | .int _ .sub | .int _ .mul => true
  | _ => false

/-- An initial value consists of constants and of operators that cannot fail and change nothing. It
may depend on globals that never change. The functions that it refers to may be referred to in
bodies as well. -/
def acceptConstant (s : Scope) (op : AnyOperator) : Except Cause Scope :=
  match op with
  | .basic (.constI32 _) | .basic (.constF64 _) | .basic .finish => .ok s
  | .basic (.numeric op') =>
    if isConstantOp op' then .ok s else .error (.notConstant (visitName op))
  | .plain op' none _ =>
    if op'.takes.isEmpty then .ok s else .error (.notConstant (visitName op))
  | .globalGet index =>
    match s.globals[index]? with
    | none => .error (.unknown .global index)
    | some t => if t.isMutable then .error .mutableConstant else .ok s
  | .refFunc function => .ok { s with referable := function :: s.referable }
  | .refNull _ | .refI31 | .fromHost | .toHost | .structNew _ | .structNewDefault _ | .arrayNew _
  | .arrayNewDefault _ | .arrayNewFixed _ _ => .ok s
  | op => .error (.notConstant (visitName op))

/-- Check an initial value of the expected type. -/
def checkInitial (c : Context) (expected : ValType) (value : Cursor) : Except Fault Context := do
  let s ← checkOperators acceptConstant { c with } value.rest.length (initial [expected]) value
  return s.toContext

/-! ## Function bodies -/

/-- The most parameters and local slots a function may have. -/
def maxLocals : Nat := 50000

/-- Read a run of locals of a body behind the slots before it. A run that goes beyond the limit is
found where it starts. -/
def localsEntry (c : Context) (slots : Array ValType) : Reader (Array ValType) := do
  let start ← Reader.offset
  let count ← Reader.u32
  let type ← located start (c.resolve (← Reader.valueType))
  if maxLocals < slots.size + count then Reader.fail .tooManyLocals start
  else return slots ++ Array.replicate count type

/-- Fold a reader over `n` entries. -/
def foldEntries (entry : σ → Reader σ) : Nat → σ → Reader σ
  | 0, s => return s
  | n + 1, s => do
    let s ← entry s
    foldEntries entry n s

/-- Check the code of a function of the given type. -/
def checkFunction (c : Context) (type : FuncType) (body : Cursor) : Except Fault Unit := do
  let (runs, cursor) ← Reader.u32 body
  let (locals, cursor) ← foldEntries (localsEntry c) runs type.params.toArray cursor
  let s : Scope := { c with locals, params := type.params.length }
  let _ ← checkOperators (fun s _ => .ok s) s cursor.rest.length (initial type.results) cursor

end TreeWasm.Wasm.Validation
