-- SUMMARY: Values, what operators do to them, and how the evaluation of a tree can come out.
import TreeWasm.Binary64.Basic
import TreeWasm.Machine.Op
import TreeWasm.Tree.ValueType

/-!
# Values and outcomes

What trees evaluate to. The arithmetic itself is a parameter: any partial function for each operator
at each type will do, and where it has no result the evaluation traps.

A tree may be left before it completes. The outcome then says what is left for: a label in the
source, a number of frames on the machine. Outcomes are composed by `Outcome.andThen`, which gives
up the rest as soon as a part does not complete.
-/

namespace TreeWasm

/-! ## Values -/

inductive Value where
  | i32 (value : Int32)
  | i64 (value : Int64)
  /-- A number of 32 bits, by its bits. -/
  | f32 (bits : UInt32)
  | f64 (value : Binary64)
deriving DecidableEq, Repr

namespace Value

def type : Value → Wasm.ValType
  | .i32 _ => .i32
  | .i64 _ => .i64
  | .f32 _ => .f32
  | .f64 _ => .f64

theorem eq_i32_of_type {v : Value} (h : v.type = .i32) : ∃ n, v = .i32 n := by
  cases v with
  | i32 n => exact ⟨n, rfl⟩
  | i64 _ | f32 _ | f64 _ => cases h

end Value

/-- What the operators of the source do at each type of values. -/
structure Arithmetic where
  apply : Arith → Wasm.ValType → Value → Value → Option Value
  type_apply {op t a b v} : apply op t a b = some v → v.type = t

namespace Arithmetic

/-- The operators on signed words of 32 bits. A quotient that is no such word is left out, and so is
what is divided by zero. -/
def onInt32 : Arith → Int32 → Int32 → Option Int32
  | .add, a, b => some (a + b)
  | .sub, a, b => some (a - b)
  | .mul, a, b => some (a * b)
  | .div, a, b => if b = 0 ∨ (a = Int32.minValue ∧ b = -1) then none else some (a / b)
  | .mod, a, b => if b = 0 then none else some (a % b)

/-- Arithmetic that is defined on words of 32 bits alone. -/
def int32 : Arithmetic where
  apply
    | op, .i32, .i32 a, .i32 b => (onInt32 op a b).map .i32
    | _, _, _, _ => none
  type_apply := by
    intro op t a b v h
    split at h
    · obtain ⟨n, -, rfl⟩ := Option.map_eq_some_iff.1 h
      rfl
    · cases h

end Arithmetic

/-- What a machine operation is for. -/
def MachineOp.arith : MachineOp → Arith
  | .int _ .add | .float _ .add => .add
  | .int _ .sub | .float _ .sub => .sub
  | .int _ .mul | .float _ .mul => .mul
  | .int _ .divS | .float _ .div => .div
  | .int _ .remS => .mod

/-! ## Outcomes -/

/-- How an evaluation comes out. Code that can be left is named by targets of type `τ`. -/
inductive Outcome (τ : Type) where
  /-- It completes, with a value or without one. -/
  | ends (value : Option Value)
  /-- It is left for a target, with a value or without one. -/
  | leaves (target : τ) (value : Option Value)
  | traps
  /-- It makes no sense. No well-typed code comes to this. -/
  | fails
deriving DecidableEq, Repr

namespace Outcome

variable {τ σ : Type}

/-- Go on with what was left if the evaluation completed. -/
def andThen : Outcome τ → (Option Value → Outcome τ) → Outcome τ
  | ends v, next => next v
  | leaves target v, _ => leaves target v
  | traps, _ => traps
  | fails, _ => fails

@[simp] theorem andThen_ends (v : Option Value) (next : Option Value → Outcome τ) :
    (ends v).andThen next = next v := rfl

@[simp] theorem andThen_leaves (target : τ) (v : Option Value) (next : Option Value → Outcome τ) :
    (leaves target v).andThen next = leaves target v := rfl

@[simp] theorem andThen_traps (next : Option Value → Outcome τ) :
    (traps : Outcome τ).andThen next = traps := rfl

@[simp] theorem andThen_fails (next : Option Value → Outcome τ) :
    (fails : Outcome τ).andThen next = fails := rfl

/-- Forget the value that was left. -/
def forget (o : Outcome τ) : Outcome τ := o.andThen fun _ => ends none

/-- The value of a slot. -/
def ofSlot (slots : List Value) (index : UInt32) : Outcome τ :=
  match slots[index.toNat]? with
  | some v => ends (some v)
  | none => fails

/-- A value, or a trap where there is none. -/
def orTrap : Option Value → Outcome τ
  | some v => ends (some v)
  | none => traps

/-- Apply an operator of the source at a type to what two operands left. -/
def ofOperator (A : Arithmetic) (op : Arith) (type : Wasm.ValType) :
    Option Value → Option Value → Outcome τ
  | some a, some b => orTrap (A.apply op type a b)
  | _, _ => fails

/-- Decide between two evaluations by what a condition left. -/
def choose (thenOutcome elseOutcome : Outcome τ) : Option Value → Outcome τ
  | some (.i32 n) => if n = 0 then elseOutcome else thenOutcome
  | _ => fails

theorem choose_of_ne {n : Int32} (h : n ≠ 0) (thenOutcome elseOutcome : Outcome τ) :
    choose thenOutcome elseOutcome (some (.i32 n)) = thenOutcome := by
  simp only [choose, h, ite_false]

/-- Name targets anew. Nothing is left for a target that has no new name. -/
def retarget (rename : τ → Option σ) : Outcome τ → Outcome σ
  | ends v => ends v
  | leaves target v =>
    match rename target with
    | some target => leaves target v
    | none => fails
  | traps => traps
  | fails => fails

theorem retarget_andThen (rename : τ → Option σ) (o : Outcome τ) (next : Option Value → Outcome τ) :
    (o.andThen next).retarget rename =
      (o.retarget rename).andThen fun v => (next v).retarget rename := by
  cases o with
  | leaves target v =>
    simp only [andThen_leaves, retarget]
    cases rename target <;> rfl
  | ends v | traps | fails => rfl

theorem retarget_forget (rename : τ → Option σ) (o : Outcome τ) :
    o.forget.retarget rename = (o.retarget rename).forget :=
  retarget_andThen rename o _

theorem retarget_leaves {rename : τ → Option σ} {target : τ} {target' : σ}
    (h : rename target = some target') (v : Option Value) :
    (leaves target v).retarget rename = leaves target' v := by
  simp only [retarget, h]

theorem retarget_ofSlot (rename : τ → Option σ) (slots : List Value) (index : UInt32) :
    (ofSlot slots index).retarget rename = ofSlot slots index := by
  unfold ofSlot
  cases slots[index.toNat]? <;> rfl

theorem retarget_ofOperator (rename : τ → Option σ) (A : Arithmetic) (op : Arith)
    (type : Wasm.ValType) (a b : Option Value) :
    (ofOperator A op type a b).retarget rename = ofOperator A op type a b := by
  cases a with
  | none => rfl
  | some a =>
    cases b with
    | none => rfl
    | some b =>
      simp only [ofOperator]
      cases A.apply op type a b <;> rfl

theorem retarget_choose (rename : τ → Option σ) (thenOutcome elseOutcome : Outcome τ)
    (v : Option Value) : (choose thenOutcome elseOutcome v).retarget rename =
      choose (thenOutcome.retarget rename) (elseOutcome.retarget rename) v := by
  unfold choose
  split
  · split <;> rfl
  · rfl

end Outcome

end TreeWasm
