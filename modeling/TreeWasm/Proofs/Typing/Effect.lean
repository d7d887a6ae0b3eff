-- SUMMARY: Effects of instructions: which value they leave, that they leave none, or that they never complete.
import TreeWasm.Lowering.Representation
import TreeWasm.Tree.Program

/-!
# Effects

An instruction leaves a value of one type, completes without leaving one, or never completes. The
judgement `HasEffect` says which, relative to the slots of the function and to the blocks around the
instruction. Lowering does not ask for an effect: it is what a front end has to see to.

Types of values are those of the target. Of these, instructions have the four that a machine type
stands for (`MachineType.valType?`).
-/

namespace TreeWasm

/-! ## Effects -/

inductive Effect where
  | value (type : Wasm.ValType)
  | void
  | diverge
deriving DecidableEq, Repr

namespace Effect

/-- The effect of code that completes with a result. -/
def ofResult : Option Wasm.ValType → Effect
  | some t => .value t
  | none => .void

/-- The type of the value that is left. -/
def valType? : Effect → Option Wasm.ValType
  | .value t => some t
  | .void | .diverge => none

/-- Code of the effect may stand where a result is due. Code that never completes may stand
anywhere. -/
def Fits (e : Effect) (result : Option Wasm.ValType) : Prop := e = ofResult result ∨ e = .diverge

@[simp] theorem valType?_ofResult (result : Option Wasm.ValType) :
    (ofResult result).valType? = result := by
  cases result <;> rfl

theorem fits_ofResult (result : Option Wasm.ValType) : (ofResult result).Fits result := .inl rfl

/-- Where a value is due, either it is left or nothing ever is. -/
theorem Fits.valType? {e : Effect} {result : Option Wasm.ValType} (h : e.Fits result) :
    e.valType? = result ∨ e.valType? = none := by
  rcases h with rfl | rfl
  · exact .inl (valType?_ofResult result)
  · exact .inr rfl

end Effect

/-- The type of the values of a value type, if it has values. -/
def ValueType.valType? (t : ValueType) : Option Wasm.ValType :=
  t.machineType?.bind MachineType.valType?

theorem ValueType.valType?_of_machineType {t : ValueType} {m : MachineType}
    (h : t.machineType = .ok m) : t.valType? = m.valType? := by
  rw [valType?, machineType_eq_ok_iff.1 h, Option.bind_some]

theorem ValueType.valType?_eq_some_iff {t : ValueType} {v : Wasm.ValType} :
    t.valType? = some v ↔ ∃ m, t.machineType = .ok m ∧ m.valType? = some v := by
  simp only [valType?, Option.bind_eq_some_iff, machineType_eq_ok_iff]

theorem ValueType.ref?_of_valType? {t : ValueType} {v : Wasm.ValType} (h : t.valType? = some v) :
    v.ref? = none := by
  obtain ⟨m, -, hm⟩ := valType?_eq_some_iff.1 h
  exact MachineType.ref?_of_valType? hm

/-- An operation works on values of the type that it was selected for. -/
theorem Arith.valType_of_machineOp {op : Arith} {type : ValueType} {m : MachineOp}
    {t : Wasm.ValType} (hop : op.machineOp type = .ok m) (ht : type.valType? = some t) :
    m.valType = t := by
  have hm : op.machineOp? type = some m := by
    unfold machineOp at hop
    split at hop
    · next h =>
      cases hop
      exact h
    · cases hop
  rw [ValueType.valType?, type_of_machineOp? hm, Option.bind_some, m.valType?_type] at ht
  exact Option.some.inj ht

/-! ## Instructions -/

/-- The labels of the blocks around an instruction with their types, innermost first. -/
abbrev Labels : Type := List (String × ValueType)

mutual

/-- In a function with the given slots and under the given blocks, an instruction has an effect. -/
inductive HasEffect (slots : List ValueType) : Labels → Instruction → Effect → Prop where
  | constInt32 {labels value} : HasEffect slots labels (.constInt32 value) (.value .i32)
  | constBool {labels value} : HasEffect slots labels (.constBool value) (.value .i32)
  | constFloat64 {labels value} : HasEffect slots labels (.constFloat64 value) (.value .f64)
  | localGet {labels index slot type t} :
      slots[index.toNat]? = some slot → slot.valType? = some t → type.valType? = some t →
      HasEffect slots labels (.localGet index type) (.value t)
  | binaryOp {labels op type m t lhs rhs l r} :
      op.machineOp type = .ok m → type.valType? = some t →
      HasEffect slots labels lhs l → l.Fits (some t) →
      HasEffect slots labels rhs r → r.Fits (some t) →
      HasEffect slots labels (.binaryOp op type lhs rhs) (.value t)
  | breakNever {labels label} :
      labels.lookup label = some .never →
      HasEffect slots labels (.breakTo label) .diverge
  | breakNeverWith {labels label value e} :
      labels.lookup label = some .never → HasEffect slots labels value e →
      HasEffect slots labels (.breakWith label value) .diverge
  | breakWith {labels label type t value e} :
      labels.lookup label = some type → type.valType? = some t →
      HasEffect slots labels value e → e.Fits (some t) →
      HasEffect slots labels (.breakWith label value) .diverge
  | ifThen {labels condition thenBody c e} :
      HasEffect slots labels condition c → c.Fits (some .i32) →
      HasEffect slots labels thenBody e →
      HasEffect slots labels (.ifThen condition thenBody) .void
  | ifElseValue {labels condition thenBody elseBody c l r t} :
      HasEffect slots labels condition c → c.Fits (some .i32) →
      HasEffect slots labels thenBody l → l.Fits (some t) →
      HasEffect slots labels elseBody r → r.Fits (some t) →
      l = .value t ∨ r = .value t →
      HasEffect slots labels (.ifElse condition thenBody elseBody) (.value t)
  | ifElseVoid {labels condition thenBody elseBody c l r} :
      HasEffect slots labels condition c → c.Fits (some .i32) →
      HasEffect slots labels thenBody l → l.Fits none →
      HasEffect slots labels elseBody r → r.Fits none →
      HasEffect slots labels (.ifElse condition thenBody elseBody) .void
  | blockNever {labels label children} :
      EndsWith slots ((label, .never) :: labels) children none →
      HasEffect slots labels (.block label .never children) .void
  | blockValue {labels label type t children} :
      type.valType? = some t →
      EndsWith slots ((label, type) :: labels) children (some t) →
      HasEffect slots labels (.block label type children) (.value t)

/-- Instructions that stand in sequence end with a result: all but the last leave nothing, and the
last one leaves the result. -/
inductive EndsWith (slots : List ValueType) :
    Labels → List Instruction → Option Wasm.ValType → Prop where
  | nil {labels} : EndsWith slots labels [] none
  | last {labels i e result} :
      HasEffect slots labels i e → e.Fits result → EndsWith slots labels [i] result
  | cons {labels i e is result} :
      HasEffect slots labels i e → e.Fits none → EndsWith slots labels is result →
      EndsWith slots labels (i :: is) result

end

/-! ## Functions -/

namespace Function

/-- The declared types of all slots of a function, parameters first. -/
def slots (f : Function) : List ValueType := f.params ++ f.locals

/-- All slots of the function hold values, and its body ends as its return type demands. -/
structure WellTyped (f : Function) : Prop where
  slots : ∀ t ∈ f.slots, t.valType?.isSome
  body : ∃ m e, f.returnType.machineType = .ok m ∧ HasEffect f.slots [] f.body e ∧
    e.Fits m.valType?

end Function

end TreeWasm
