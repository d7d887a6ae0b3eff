-- SUMMARY: The operand stack and the open frames of a body while it is checked.
import TreeWasm.Wasm.Fault
import TreeWasm.Wasm.TypeTable

/-!
# Operands and frames

The checker keeps the open frames of a body, innermost first, and for each the types of the
operands that were pushed inside it. Code behind a branch is unreachable: there an operand may be
taken from an empty stack and then is of any type.

When a frame ends, its results are taken first, and then nothing may be left.
-/

namespace TreeWasm.Wasm.Validation

/-- The type of an operand, as far as it is known. -/
inductive Operand where
  | unknown
  /-- A reference, to something below the heap type if there is one. -/
  | unknownRef (bound : Option HeapType)
  | known (type : ValType)
deriving DecidableEq, Repr, Inhabited

inductive Construct where
  | body
  | block
  | loop
  | cond
  | alternative
  | tryTable
deriving DecidableEq, Repr, Inhabited

/-- An open frame of a body. -/
structure Control where
  construct : Construct
  arrow : FuncType
  /-- The types of the operands pushed in this frame, the last one first. -/
  operands : List Operand := []
  unreachable : Bool := false
  /-- The slots that were stored to in this frame. -/
  stored : List Nat := []
deriving DecidableEq, Repr, Inhabited

/-- The types of the values that a branch to the frame carries. -/
def Control.label (c : Control) : List ValType :=
  if c.construct = .loop then c.arrow.params else c.arrow.results

/-- The open frames of a body, innermost first. None are left behind its last operator. -/
abbrev Controls : Type := List Control

/-! ## Operands -/

def pushOperand (o : Operand) : Controls → Except Cause Controls
  | [] => .error .operatorsAfterEnd
  | c :: cs => .ok ({ c with operands := o :: c.operands } :: cs)

def push (type : ValType) (cs : Controls) : Except Cause Controls := pushOperand (.known type) cs

def pushAll (types : List ValType) (cs : Controls) : Except Cause Controls :=
  types.foldlM (fun cs type => push type cs) cs

/-- Take an operand of any type. -/
def popOperand : Controls → Except Cause (Operand × Controls)
  | [] => .error .operatorsAfterEnd
  | c :: cs =>
    match c.operands with
    | o :: operands => .ok (o, { c with operands } :: cs)
    | [] => if c.unreachable then .ok (.unknown, c :: cs) else .error (.nothingOnStack none)

/-- The operand may stand where a value of the expected type is due. -/
def checkOperand (types : Types) (expected : ValType) : Operand → Except Cause Unit
  | .unknown => .ok ()
  | .known found =>
    if types.isSubtype found expected then .ok () else .error (.mismatch expected found)
  | .unknownRef bound =>
    match expected.ref?, bound with
    | none, _ => .error (.mismatchUnknownRef expected)
    | some _, none => .ok ()
    | some r, some heap =>
      if types.isBelow heap r.heap then .ok ()
      else .error (.mismatch expected (.ref ⟨false, heap⟩))

/-- Take an operand of the expected type. -/
def pop (types : Types) (expected : ValType) : Controls → Except Cause Controls
  | [] => .error .operatorsAfterEnd
  | c :: cs =>
    match c.operands with
    | o :: operands => do
      checkOperand types expected o
      return { c with operands } :: cs
    | [] => if c.unreachable then .ok (c :: cs) else .error (.nothingOnStack (some expected))

/-- Take operands of the given types, the last one first. -/
def popAll (types : Types) (expected : List ValType) (cs : Controls) : Except Cause Controls :=
  expected.reverse.foldlM (fun cs type => pop types type cs) cs

/-- Take `n` operands of one type. An empty stack of unreachable code has any number of them. -/
def popTimes (types : Types) (type : ValType) : Nat → Controls → Except Cause Controls
  | 0, cs => .ok cs
  | n + 1, cs => do
    match ← pop types type cs with
    | [] => return []
    | c :: cs =>
      if c.operands.isEmpty && c.unreachable then return c :: cs
      else popTimes types type n (c :: cs)

/-- Take some operands and push others. -/
def exchange (types : Types) (takes gives : List ValType) (cs : Controls) :
    Except Cause Controls := do
  pushAll gives (← popAll types takes cs)

/-- Take a reference of any type. -/
def popRef (cs : Controls) : Except Cause (Operand × Controls) := do
  match ← popOperand cs with
  | (.unknown, cs) => return (.unknownRef none, cs)
  | (.known t, cs) => if t.ref?.isSome then return (.known t, cs) else throw (.notReference t)
  | (o, cs) => return (o, cs)

/-- Take a reference to something below a heap type. -/
def popRefBelow (types : Types) (heap : HeapType) (cs : Controls) :
    Except Cause (Operand × Controls) := do
  let (o, cs) ← popRef cs
  match o with
  | .known t =>
    let expected := ValType.ref ⟨true, heap⟩
    if types.isSubtype t expected then return (o, cs)
    else throw (.unfit ("type mismatch: expected subtype of " ++ expected.name ++ ", found " ++
      t.name))
  | o => return (o, cs)

/-- The operand once it is known not to be null. -/
def Operand.asNonNull : Operand → Operand
  | .known t =>
    match t.ref? with
    | some r => .known (.ref { r with nullable := false })
    | none => .known t
  | o => o

/-! ## Frames -/

/-- A frame with what it takes pushed in it. -/
def Control.opened (construct : Construct) (arrow : FuncType) : Control :=
  { construct, arrow, operands := arrow.params.reverse.map .known }

/-- Open a frame that takes its operands from the one around it. -/
def openFrame (types : Types) (construct : Construct) (arrow : FuncType) (cs : Controls) :
    Except Cause Controls := do
  match ← popAll types arrow.params cs with
  | [] => throw .operatorsAfterEnd
  | cs => return .opened construct arrow :: cs

/-- End the innermost frame. Gives back the frame and the ones around it. -/
def close (types : Types) (cs : Controls) : Except Cause (Control × Controls) := do
  match cs with
  | [] => throw .operatorsAfterEnd
  | c :: _ =>
    match ← popAll types c.arrow.results cs with
    | [] => throw .operatorsAfterEnd
    | c :: cs => if c.operands.isEmpty then return (c, cs) else throw .valuesRemaining

/-- Nothing after this point of the innermost frame is reached. -/
def becomeUnreachable : Controls → Controls
  | [] => []
  | c :: cs => { c with operands := [], unreachable := true } :: cs

/-- Push the results of a frame that has ended. The end of the body itself leaves no frame that
could take them. -/
def leave (results : List ValType) : Controls → Except Cause Controls
  | [] => .ok []
  | cs => pushAll results cs

/-- The types of the values that a branch over `depth` frames carries. -/
def labelAt (depth : Nat) (cs : Controls) : Except Cause (List ValType) :=
  match cs, cs[depth]? with
  | [], _ => .error .operatorsAfterEnd
  | _, some target => .ok target.label
  | _, none => .error .unknownLabel

/-- Take the values that a branch over `depth` frames carries, and leave. -/
def branch (types : Types) (depth : Nat) (cs : Controls) : Except Cause Controls := do
  return becomeUnreachable (← popAll types (← labelAt depth cs) cs)

/-- Take the values that a branch over `depth` frames carries, and push them back. -/
def mayBranch (types : Types) (depth : Nat) (cs : Controls) : Except Cause Controls := do
  let label ← labelAt depth cs
  exchange types label label cs

/-- The types of what the whole body gives back. -/
def bodyResults (cs : Controls) : List ValType := (cs.getLast?.map (·.arrow.results)).getD []

/-! ## Slots -/

/-- Something is stored in a slot. -/
def store (index : Nat) : Controls → Controls
  | [] => []
  | c :: cs => { c with stored := index :: c.stored } :: cs

/-- A slot was stored to on every way to this point. -/
def isStored (index : Nat) (cs : Controls) : Bool := cs.any (·.stored.contains index)

end TreeWasm.Wasm.Validation
