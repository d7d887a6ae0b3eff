-- SUMMARY: Type checking of function bodies, one operator at a time.
import TreeWasm.Wasm.AnyOperator
import TreeWasm.Wasm.Validation.Context
import TreeWasm.Wasm.Validation.Controls

/-!
# Body checking

Each operator changes the operands and the open frames, or is at fault. `stepBasic` checks the
operators that this library writes, `step` any others. Most take operands of some types and push
others, which `exchange` does.
-/

namespace TreeWasm.Wasm.Validation

/-- What the operators of a body are checked against. -/
structure Scope extends Context where
  /-- The types of the parameters and the local slots. -/
  locals : Array ValType := #[]
  /-- The number of parameters, which have values from the start. -/
  params : Nat := 0
deriving Repr, Inhabited

namespace Scope

/-- The type of a slot. -/
def slot (s : Scope) (index : Nat) : Except Cause ValType :=
  orFault s.locals[index]? (.unknown .localSlot index)

/-- The types of what a frame takes and leaves. -/
def blockArrow (s : Scope) : BlockType → Except Cause FuncType
  | .result none => return ⟨[], []⟩
  | .result (some t) => return ⟨[], [← s.resolve t]⟩
  | .typed index => s.arrowHere index

/-- The type of addresses for an access to memory, which must be aligned as the operator demands. -/
def access (s : Scope) (use : MemoryUse) (arg : MemoryArg) : Except Cause ValType :=
  if use.isExact then
    if arg.alignment = use.alignment then s.addressHere arg.memory else .error .alignmentNotExact
  else do
    let address ← s.addressHere arg.memory
    if use.alignment < arg.alignment then throw .alignmentTooLarge
    else if address = .i32 ∧ UInt32.size ≤ arg.offset then throw .offsetTooLarge
    else return address

end Scope

/-! ## Basic operators -/

/-- Check an operator that this library writes. -/
def stepBasic (s : Scope) (cs : Controls) : Operator → Except Cause Controls
  | .constI32 _ => push .i32 cs
  | .constF64 _ => push .f64 cs
  | .localGet index => do
    let type ← s.slot index.toNat
    if type.hasDefault ∨ index.toNat < s.params ∨ isStored index.toNat cs then push type cs
    else throw (.uninitializedLocal index.toNat)
  | .numeric op => do
    let cs ← pop s.types op.valType cs
    let cs ← pop s.types op.valType cs
    push op.valType cs
  | .drop => do
    let (_, cs) ← popOperand cs
    return cs
  | .block result => do openFrame s.types .block (← s.blockArrow (.result result)) cs
  | .cond result => do
    let arrow ← s.blockArrow (.result result)
    openFrame s.types .cond arrow (← pop s.types .i32 cs)
  | .alternative => do
    let (c, cs) ← close s.types cs
    if c.construct = .cond then return .opened .alternative c.arrow :: cs
    else throw .alternativeOutsideCond
  | .finish => do
    let (c, cs) ← close s.types cs
    -- an if that has no alternative behaves as if it had an empty one
    if c.construct = .cond then
      let (c, cs) ← close s.types (.opened .alternative c.arrow :: cs)
      leave c.arrow.results cs
    else leave c.arrow.results cs
  | .branch depth => branch s.types depth cs

/-! ## Calls -/

/-- Call a function of a type. -/
def call (s : Scope) (arrow : FuncType) (cs : Controls) : Except Cause Controls :=
  exchange s.types arrow.params arrow.results cs

/-- Call a function of a type and give back what it gives back. -/
def tailCall (s : Scope) (arrow : FuncType) (cs : Controls) : Except Cause Controls := do
  let results := bodyResults cs
  if s.types.areSubtypes arrow.results results then
    return becomeUnreachable (← popAll s.types arrow.params cs)
  else
    let listed (types : List ValType) := "[" ++ " ".intercalate (types.map (·.name)) ++ "]"
    throw (.unfit ("type mismatch: current function requires result type " ++ listed results ++
      " but callee returns " ++ listed arrow.results))

/-- The type of a function that is called through a table, and the operands without its address. -/
def calledIndirectly (s : Scope) (type table : Nat) (cs : Controls) :
    Except Cause (FuncType × Controls) := do
  let t ← s.table table
  if s.types.isSubRef t.element ⟨true, .of .func⟩ then
    let cs ← pop s.types t.limits.addressType cs
    return (← s.arrowHere type, cs)
  else
    throw (.unfit "type mismatch: indirect calls must go through a table with type <= funcref")

/-- The type of a function that is called through a reference, and the operands without it. -/
def calledByRef (s : Scope) (type : Nat) (cs : Controls) : Except Cause (FuncType × Controls) := do
  let cs ← pop s.types (← s.refTo true type) cs
  return (← s.arrowHere type, cs)

/-! ## Exceptions -/

/-- A handler passes on what comes with the exceptions that it is for. -/
def checkHandler (s : Scope) (h : Handler) (cs : Controls) : Except Cause Unit := do
  let exception := ValType.ref ⟨false, .of .exn⟩
  match h.tag?, h.isReferred with
  | some tag, referred =>
    let params := (← s.tagHere tag).params
    let label ← labelAt h.label cs
    let given := if referred then params ++ [exception] else params
    if given.length ≠ label.length then
      throw (.unfit (if referred then
        "type mismatch: catch_ref label must have one more type than tag types"
        else "type mismatch: catch label must have same number of types as tag"))
    else
      for (expected, found) in label.zip given do
        checkOperand s.types expected (.known found)
  | none, false =>
    if (← labelAt h.label cs).isEmpty then return
    else throw (.unfit "type mismatch: catch_all label must have no result type")
  | none, true =>
    match ← labelAt h.label cs with
    | [t] =>
      if s.types.isSubtype exception t then return
      else throw (.unfit "type mismatch: catch_all_ref label must a subtype of an exnref")
    | _ => throw (.unfit "type mismatch: catch_all_ref label must have exactly one result type")

/-! ## Selection and plain operators -/

/-- The type of a selection between two operands, neither of which may be a reference. -/
def selected : Operand → Operand → Except Cause Operand
  | .unknownRef _, _ | _, .unknownRef _ =>
    .error (.unfit "type mismatch: select only takes integral types")
  | .unknown, .unknown => .ok .unknown
  | .unknown, .known t | .known t, .unknown =>
    if t.ref?.isSome then .error (.unfit "type mismatch: select only takes integral types")
    else .ok (.known t)
  | .known a, .known b =>
    if a.ref?.isSome || b.ref?.isSome then
      .error (.unfit "type mismatch: select only takes integral types")
    else if a = b then .ok (.known a)
    else .error (.unfit "type mismatch: select operands have different types")

def stepPlain (s : Scope) (op : PlainOp) (arg : Option MemoryArg) (lane : Nat) (cs : Controls) :
    Except Cause Controls := do
  let address ← match op.memory?, arg with
    | some use, some arg => (fun t => [t]) <$> s.access use arg
    | _, _ => pure []
  match op.lanes? with
  | some lanes => if lanes ≤ lane then throw .laneOutOfBounds
  | none => pure ()
  exchange s.types (address ++ op.takes) op.gives cs

/-! ## References -/

/-- The heap type above all that are related to one. -/
def top (s : Scope) : HeapType → HeapType
  | .kind .func _ | .kind .noFunc _ => .of .func
  | .kind .host _ | .kind .noHost _ => .of .host
  | .kind .exn _ | .kind .noExn _ => .of .exn
  | .kind .cont _ | .kind .noCont _ => .of .cont
  | .defined index => if (s.arrow? index.toNat).isSome then .of .func else .of .any
  | _ => .of .any

/-- What is left of a type of references behind a cast to another one that failed. -/
def difference (source target : RefType) : RefType :=
  { source with nullable := source.nullable && !target.nullable }

/-- Check a branch that carries a reference of a type as its last value, if the cast decides so.
The reference stays if it does not. -/
def castBranch (s : Scope) (depth : Nat) (source carried kept : RefType) (cs : Controls) :
    Except Cause Controls := do
  let label ← labelAt depth cs
  match label.getLast? with
  | none => throw (.unfit "type mismatch: expected a reference type, found nothing")
  | some t =>
    if s.types.isSubtype (.ref carried) t then
      let cs ← pop s.types (.ref source) cs
      let cs ← exchange s.types label.dropLast label.dropLast cs
      push (.ref kept) cs
    else
      throw (.unfit ("type mismatch: casting to type " ++ carried.name ++
        ", but it does not match label result type " ++ t.name))

/-- The target and the source of a cast are related. -/
def checkCast (s : Scope) (source target : RefType) : Except Cause Unit :=
  if s.types.isSubRef target source then .ok ()
  else .error (.unfit ("type mismatch: expected " ++ source.name ++ ", found " ++ target.name))

/-- A reference on the other side of the border to the host. -/
def crossed (heap : HeapType) : Operand → Operand
  | .known t => .known (.ref ⟨(t.ref?.map (·.nullable)).getD true, heap⟩)
  | _ => .unknownRef (some heap)

/-! ## Structures and arrays -/

/-- A field is read in a way that fits what it holds. A field that holds less than a value is not
read as a whole, for the given reason. -/
def checkExtension (operator reason : String) (e : Extension) (f : Field) : Except Cause Unit :=
  match e, f.storage.isPacked with
  | .whole, true => .error (.unfit reason)
  | .signed, false | .unsigned, false =>
    .error (.unfit ("cannot use " ++ operator ++ e.suffix ++ " with non-packed storage types"))
  | _, _ => .ok ()

/-- The elements of an array can be changed. -/
def checkMutable (operator : String) (f : Field) : Except Cause Unit :=
  if f.isMutable then .ok ()
  else .error (.unfit ("invalid " ++ operator ++ ": array is immutable"))

/-- The elements of an array are made from bytes. -/
def checkFromBytes (operator : String) (f : Field) : Except Cause Unit :=
  if f.storage.unpacked.ref?.isNone then .ok ()
  else .error (.unfit ("type mismatch: " ++ operator ++
    " can only create arrays with numeric and vector elements"))

/-- The elements of an array are taken from an element segment. -/
def checkFromSegment (s : Scope) (operator : String) (segment : Nat) (f : Field) :
    Except Cause Unit := do
  match f.storage.unpacked.ref? with
  | none => throw (.unfit ("type mismatch: " ++ operator ++
      " can only create arrays with reference elements"))
  | some r =>
    let found ← s.elementSegment segment
    if s.types.isSubRef found r then return
    else throw (.unfit ("invalid " ++ operator ++ " instruction: element segment " ++
      toString segment ++ " type mismatch: expected " ++ r.name ++ ", found " ++ found.name))

/-- A field has a value before anything is stored in it. -/
def checkDefault (operator : String) (f : Field) : Except Cause Unit :=
  if f.storage.unpacked.hasDefault then .ok ()
  else .error (.unfit ("invalid `" ++ operator ++ "`: " ++ f.storage.unpacked.name ++
    " field is not defaultable"))

/-! ## Operators -/

/-- Check one operator. -/
def step (s : Scope) (cs : Controls) : AnyOperator → Except Cause Controls
  | .basic op => stepBasic s cs op
  -- control
  | .unreachable => .ok (becomeUnreachable cs)
  | .nop | .fence => .ok cs
  | .block type => do openFrame s.types .block (← s.blockArrow type) cs
  | .loop type => do openFrame s.types .loop (← s.blockArrow type) cs
  | .cond type => do
    let arrow ← s.blockArrow type
    openFrame s.types .cond arrow (← pop s.types .i32 cs)
  | .branchIf depth => do mayBranch s.types depth (← pop s.types .i32 cs)
  | .branchTable depths otherwise => do
    let cs ← pop s.types .i32 cs
    let last ← labelAt otherwise cs
    for depth in depths do
      let label ← labelAt depth cs
      if label.length ≠ last.length then
        throw (.unfit "type mismatch: br_table target labels have different number of types")
      let _ ← popAll s.types label cs
    branch s.types otherwise cs
  | .leave => do return becomeUnreachable (← popAll s.types (bodyResults cs) cs)
  | .call function => do call s (← s.functionHere function) cs
  | .callIndirect type table => do
    let (arrow, cs) ← calledIndirectly s type table cs
    call s arrow cs
  | .callRef type => do
    let (arrow, cs) ← calledByRef s type cs
    call s arrow cs
  | .tailCall function => do tailCall s (← s.functionHere function) cs
  | .tailCallIndirect type table => do
    let (arrow, cs) ← calledIndirectly s type table cs
    tailCall s arrow cs
  | .tailCallRef type => do
    let (arrow, cs) ← calledByRef s type cs
    tailCall s arrow cs
  | .throwTag tag => do return becomeUnreachable (← popAll s.types (← s.tagHere tag).params cs)
  | .throwRef => do return becomeUnreachable (← pop s.types (.ref ⟨true, .of .exn⟩) cs)
  | .tryTable type handlers => do
    let arrow ← s.blockArrow type
    let inner ← popAll s.types arrow.params cs
    for h in handlers do
      checkHandler s h inner
    openFrame s.types .tryTable arrow cs
  -- values
  | .select => do
    let cs ← pop s.types .i32 cs
    let (a, cs) ← popOperand cs
    let (b, cs) ← popOperand cs
    pushOperand (← selected a b) cs
  | .selectTyped [t] => do
    let t ← s.resolve t
    exchange s.types [t, t, .i32] [t] cs
  | .selectTyped _ => .error .badResultArity
  | .localSet index => do return store index (← pop s.types (← s.slot index) cs)
  | .localTee index => do
    let type ← s.slot index
    push type (store index (← pop s.types type cs))
  | .globalGet index => do push (← s.globalHere index).value cs
  | .globalSet index => do
    let type ← s.globalHere index
    if type.isMutable then pop s.types type.value cs else throw .immutableGlobal
  | .plain op arg lane => stepPlain s op arg lane cs
  | .shuffle lanes =>
    if lanes.all (· < 32) then exchange s.types [.v128, .v128] [.v128] cs
    else .error .laneOutOfBounds
  -- tables and memories
  | .tableGet table => do
    let t ← s.table table
    exchange s.types [t.limits.addressType] [.ref t.element] cs
  | .tableSet table => do
    let t ← s.table table
    exchange s.types [t.limits.addressType, .ref t.element] [] cs
  | .tableGrow table => do
    let t ← s.table table
    exchange s.types [.ref t.element, t.limits.addressType] [t.limits.addressType] cs
  | .tableSize table => do push (← s.table table).limits.addressType cs
  | .tableFill table => do
    let t ← s.table table
    exchange s.types [t.limits.addressType, .ref t.element, t.limits.addressType] [] cs
  | .tableInit segment table => do
    let t ← s.table table
    let found ← s.elementSegment segment
    if s.types.isSubRef found t.element then
      exchange s.types [t.limits.addressType, .i32, .i32] [] cs
    else throw (.unfit "type mismatch")
  | .tableCopy target source => do
    let a ← s.table source
    let b ← s.table target
    if s.types.isSubRef a.element b.element then
      let length := if a.limits.isWide then b.limits.addressType else .i32
      exchange s.types [b.limits.addressType, a.limits.addressType, length] [] cs
    else throw (.unfit "type mismatch")
  | .elementDrop segment => do
    let _ ← s.elementSegment segment
    return cs
  | .memorySize memory => do push (← s.addressHere memory) cs
  | .memoryGrow memory => do
    let address ← s.addressHere memory
    exchange s.types [address] [address] cs
  | .memoryFill memory => do
    let address ← s.addressHere memory
    exchange s.types [address, .i32, address] [] cs
  | .memoryInit segment memory => do
    let address ← s.addressHere memory
    s.checkDataSegment segment
    exchange s.types [address, .i32, .i32] [] cs
  | .memoryCopy target source => do
    let b ← s.addressHere target
    let a ← s.addressHere source
    let length := if a = .i32 then a else b
    exchange s.types [b, a, length] [] cs
  | .dataDrop segment => do
    s.checkDataSegment segment
    return cs
  -- references
  | .refNull heap => do push (.ref ⟨true, ← s.resolveHeap heap⟩) cs
  | .refIsNull => do
    let (_, cs) ← popRef cs
    push .i32 cs
  | .refFunc function => do
    let type ← orFault s.functions[function]? (.unknownFunctionHere function)
    if function ∈ s.referable then push (← s.refTo false type) cs else throw .undeclaredReference
  | .refEq => do
    let (_, cs) ← popRefBelow s.types (.of .eq) cs
    let (_, cs) ← popRefBelow s.types (.of .eq) cs
    push .i32 cs
  | .refAsNonNull => do
    let (o, cs) ← popRef cs
    pushOperand o.asNonNull cs
  | .branchOnNull depth => do
    let (o, cs) ← popRef cs
    pushOperand o.asNonNull (← mayBranch s.types depth cs)
  | .branchOnNonNull depth => do
    let label ← labelAt depth cs
    match label.getLast? with
    | none => throw (.unfit "type mismatch: br_on_non_null target has no label types")
    | some t =>
      let (o, cs) ← popRef cs
      if t.ref?.isNone then
        throw (.unfit "type mismatch: br_on_non_null target does not end with heap type")
      checkOperand s.types t o.asNonNull
      exchange s.types label.dropLast label.dropLast cs
  | .refTest type => do
    let type ← s.resolveRef type
    exchange s.types [.ref ⟨true, top s type.heap⟩] [.i32] cs
  | .refCast type => do
    let type ← s.resolveRef type
    exchange s.types [.ref ⟨true, top s type.heap⟩] [.ref type] cs
  | .branchOnCast depth source target => do
    let source ← s.resolveRef source
    let target ← s.resolveRef target
    checkCast s source target
    castBranch s depth source target (difference source target) cs
  | .branchOnCastFail depth source target => do
    let source ← s.resolveRef source
    let target ← s.resolveRef target
    checkCast s source target
    castBranch s depth source (difference source target) target cs
  | .fromHost => do
    let (o, cs) ← popRefBelow s.types (.of .host) cs
    pushOperand (crossed (.of .any) o) cs
  | .toHost => do
    let (o, cs) ← popRefBelow s.types (.of .any) cs
    pushOperand (crossed (.of .host) o) cs
  | .refI31 => exchange s.types [.i32] [.ref ⟨false, .of .i31⟩] cs
  | .i31Get _ => do
    let (_, cs) ← popRefBelow s.types (.of .i31) cs
    push .i32 cs
  -- structures and arrays
  | .structNew type => do
    let fields ← s.fieldsHere type
    exchange s.types (fields.map (·.storage.unpacked)) [← s.refTo false type] cs
  | .structNewDefault type => do
    for f in ← s.fieldsHere type do
      checkDefault "struct.new_default" f
    push (← s.refTo false type) cs
  | .structGet e type field => do
    let f ← s.fieldHere type field
    checkExtension "struct.get" "can only use struct.get with non-packed storage types" e f
    exchange s.types [← s.refTo true type] [f.storage.unpacked] cs
  | .structSet type field => do
    let f ← s.fieldHere type field
    if f.isMutable then exchange s.types [← s.refTo true type, f.storage.unpacked] [] cs
    else throw (.unfit "invalid struct.set: struct field is immutable")
  | .arrayNew type => do
    let f ← s.elementHere type
    exchange s.types [f.storage.unpacked, .i32] [← s.refTo false type] cs
  | .arrayNewDefault type => do
    checkDefault "array.new_default" (← s.elementHere type)
    exchange s.types [.i32] [← s.refTo false type] cs
  | .arrayNewFixed type size => do
    let f ← s.elementHere type
    push (← s.refTo false type) (← popTimes s.types f.storage.unpacked size cs)
  | .arrayNewData type segment => do
    checkFromBytes "array.new_data" (← s.elementHere type)
    s.checkDataSegment segment
    exchange s.types [.i32, .i32] [← s.refTo false type] cs
  | .arrayNewElement type segment => do
    checkFromSegment s "array.new_elem" segment (← s.elementHere type)
    exchange s.types [.i32, .i32] [← s.refTo false type] cs
  | .arrayGet e type => do
    let f ← s.elementHere type
    checkExtension "array.get" "cannot use array.get with packed storage types" e f
    exchange s.types [← s.refTo true type, .i32] [f.storage.unpacked] cs
  | .arraySet type => do
    let f ← s.elementHere type
    checkMutable "array.set" f
    exchange s.types [← s.refTo true type, .i32, f.storage.unpacked] [] cs
  | .arrayLength => do
    let (_, cs) ← popRefBelow s.types (.of .array) cs
    push .i32 cs
  | .arrayFill type => do
    let f ← s.elementHere type
    checkMutable "array.fill" f
    exchange s.types [← s.refTo true type, .i32, f.storage.unpacked, .i32] [] cs
  | .arrayCopy target source => do
    let f ← s.elementHere target
    if !f.isMutable then
      throw (.unfit "invalid array.copy: destination array is immutable")
    let g ← s.elementHere source
    if s.types.isSubStorage g.storage f.storage then
      exchange s.types
        [← s.refTo true target, .i32, ← s.refTo true source, .i32, .i32] [] cs
    else throw (.unfit "array types do not match")
  | .arrayInitData type segment => do
    let f ← s.elementHere type
    checkMutable "array.init_data" f
    checkFromBytes "array.init_data" f
    s.checkDataSegment segment
    exchange s.types [← s.refTo true type, .i32, .i32, .i32] [] cs
  | .arrayInitElement type segment => do
    let f ← s.elementHere type
    checkMutable "array.init_elem" f
    checkFromSegment s "array.init_elem" segment f
    exchange s.types [← s.refTo true type, .i32, .i32, .i32] [] cs
  | .disabled _ feature => .error (.disabled feature)
  | .handler name => .error (.handlerOutsideFrame name)

/-- Check operators in order. -/
def steps (s : Scope) (cs : Controls) (ops : List AnyOperator) : Except Cause Controls :=
  ops.foldlM (step s) cs

/-- The frame of a body whose function gives back values of the given types. -/
def initial (results : List ValType) : Controls :=
  [{ construct := .body, arrow := ⟨[], results⟩ }]

/-- Check the operators of a whole body, the last `finish` included. -/
def checkBody (s : Scope) (results : List ValType) (ops : List AnyOperator) :
    Except Cause Unit := do
  let cs ← steps s (initial results) ops
  if cs.isEmpty then return else throw .missingEnd

end TreeWasm.Wasm.Validation
