-- SUMMARY: A machine that runs the operators of a function body, one step at a time.
import TreeWasm.Proofs.Semantics.Outcome
import TreeWasm.Wasm.Operator

/-!
# Running operators

The stack machine that function bodies are written for. A body is a flat list of operators. Whoever
enters a frame leaves a label behind, with the operands that were there and with the number of
values that a branch to the label carries. A branch goes on behind the operator that ends the frame
of its label, which `behindEnd` looks for.

There are no loops in the code that this library writes. Code is only ever passed over, never gone
back to, so every run comes to an end.
-/

namespace TreeWasm.Wasm.Execution

/-! ## States -/

/-- A frame that was entered. -/
structure Label where
  /-- The number of values that a branch carries here. -/
  arity : Nat
  /-- The operands around the frame, the last one first. -/
  operands : List Value
deriving Repr

structure State where
  /-- The operands of the innermost frame, the last one first. -/
  operands : List Value
  /-- The frames that are open, innermost first. The last one is that of the body itself. -/
  labels : List Label
  code : List Operator
deriving Repr

/-- What a run comes to. -/
inductive Final where
  | returned (values : List Value)
  | trapped
  /-- An operator finds nothing to work on. No valid code comes to this. -/
  | stuck
deriving DecidableEq, Repr

inductive Step where
  | next (s : State)
  | halt (f : Final)

/-! ## Jumps -/

/-- The code behind the end of a frame, with `depth` frames between here and there. -/
def behindEnd : Nat → List Operator → List Operator
  | _, [] => []
  | depth, op :: code =>
    match op, depth with
    | .finish, 0 => code
    | .finish, depth + 1 => behindEnd depth code
    | .block _, depth | .cond _, depth => behindEnd (depth + 1) code
    | _, depth => behindEnd depth code

/-- The code that an if goes on with if its condition does not hold: its alternative, or only its
end if it has none. There are `depth` frames between here and there. -/
def otherwise : Nat → List Operator → List Operator
  | _, [] => []
  | depth, op :: code =>
    match op, depth with
    | .alternative, 0 => code
    | .finish, 0 => .finish :: code
    | .finish, depth + 1 => otherwise depth code
    | .block _, depth | .cond _, depth => otherwise (depth + 1) code
    | _, depth => otherwise depth code

theorem length_behindEnd_le (depth : Nat) (code : List Operator) :
    (behindEnd depth code).length ≤ code.length := by
  induction code generalizing depth with
  | nil => exact Nat.le_refl 0
  | cons op code ih =>
    have hlt (d : Nat) : (behindEnd d code).length ≤ code.length + 1 :=
      Nat.le_succ_of_le (ih d)
    cases op with
    | finish =>
      cases depth with
      | zero => exact Nat.le_succ _
      | succ depth => exact hlt depth
    | block _ | cond _ => exact hlt (depth + 1)
    | _ => exact hlt depth

theorem length_otherwise_le (depth : Nat) (code : List Operator) :
    (otherwise depth code).length ≤ code.length := by
  induction code generalizing depth with
  | nil => exact Nat.le_refl 0
  | cons op code ih =>
    have hlt (d : Nat) : (otherwise d code).length ≤ code.length + 1 :=
      Nat.le_succ_of_le (ih d)
    cases op with
    | finish =>
      cases depth with
      | zero => exact Nat.le_refl _
      | succ depth => exact hlt depth
    | alternative =>
      cases depth with
      | zero => exact Nat.le_succ _
      | succ depth => exact hlt (depth + 1)
    | block _ | cond _ => exact hlt (depth + 1)
    | _ => exact hlt depth

/-! ## Steps -/

section

variable (A : Arithmetic) (slots : List Value)

/-- One operator, in front of other code and inside at least one frame. -/
def stepOperator (operands : List Value) (label : Label) (outer : List Label)
    (code : List Operator) : Operator → Step
  | .constI32 value => .next ⟨.i32 value :: operands, label :: outer, code⟩
  | .constF64 value => .next ⟨.f64 value :: operands, label :: outer, code⟩
  | .localGet index =>
    match slots[index.toNat]? with
    | some v => .next ⟨v :: operands, label :: outer, code⟩
    | none => .halt .stuck
  | .numeric op =>
    match operands with
    | b :: a :: operands =>
      match A.apply op.arith op.valType a b with
      | some v => .next ⟨v :: operands, label :: outer, code⟩
      | none => .halt .trapped
    | _ => .halt .stuck
  | .drop =>
    match operands with
    | _ :: operands => .next ⟨operands, label :: outer, code⟩
    | [] => .halt .stuck
  | .block result => .next ⟨[], ⟨result.toList.length, operands⟩ :: label :: outer, code⟩
  | .cond result =>
    match operands with
    | .i32 n :: operands =>
      .next ⟨[], ⟨result.toList.length, operands⟩ :: label :: outer,
        if n = 0 then otherwise 0 code else code⟩
    | _ => .halt .stuck
  | .alternative => .next ⟨operands ++ label.operands, outer, behindEnd 0 code⟩
  | .finish => .next ⟨operands ++ label.operands, outer, code⟩
  | .branch depth =>
    match (label :: outer)[depth]? with
    | some target =>
      if target.arity ≤ operands.length then
        .next ⟨operands.take target.arity ++ target.operands, (label :: outer).drop (depth + 1),
          behindEnd depth code⟩
      else .halt .stuck
    | none => .halt .stuck

/-- One step of the machine. It halts behind the end of the body. -/
def step : State → Step
  | ⟨operands, [], _⟩ => .halt (.returned operands)
  | ⟨_, _ :: _, []⟩ => .halt .stuck
  | ⟨operands, label :: outer, op :: code⟩ => stepOperator A slots operands label outer code op

/-- No operator goes back in the code. -/
theorem length_code_of_stepOperator {operands : List Value} {label : Label} {outer : List Label}
    {code : List Operator} {op : Operator} {s : State}
    (h : stepOperator A slots operands label outer code op = .next s) :
    s.code.length ≤ code.length := by
  cases op with
  | constI32 | constF64 | block | finish =>
    cases h
    exact Nat.le_refl _
  | alternative =>
    cases h
    exact length_behindEnd_le 0 code
  | localGet | drop =>
    simp only [stepOperator] at h
    split at h <;> cases h
    exact Nat.le_refl _
  | numeric =>
    simp only [stepOperator] at h
    split at h
    · split at h <;> cases h
      exact Nat.le_refl _
    · cases h
  | cond =>
    simp only [stepOperator] at h
    split at h <;> cases h
    show (if _ then _ else _ : List Operator).length ≤ _
    split
    · exact length_otherwise_le 0 code
    · exact Nat.le_refl _
  | branch depth =>
    simp only [stepOperator] at h
    split at h
    · split at h <;> cases h
      exact length_behindEnd_le depth code
    · cases h

/-- Every step leaves less code to run. -/
theorem length_code_of_step {s s' : State} (h : step A slots s = .next s') :
    s'.code.length < s.code.length := by
  obtain ⟨operands, labels, code⟩ := s
  cases labels with
  | nil => cases h
  | cons label outer =>
    cases code with
    | nil => cases h
    | cons op code => exact Nat.lt_succ_of_le (length_code_of_stepOperator A slots h)

/-- Run to the end. -/
def run (s : State) : Final :=
  match _h : step A slots s with
  | .next s' => run s'
  | .halt f => f
termination_by s.code.length
decreasing_by exact length_code_of_step A slots _h

variable {A slots}

theorem run_of_next {s s' : State} (h : step A slots s = .next s') :
    run A slots s = run A slots s' := by
  rw [run]
  split
  · next h' =>
    rw [h] at h'
    cases h'
    rfl
  · next h' =>
    rw [h] at h'
    cases h'

theorem run_of_halt {s : State} {f : Final} (h : step A slots s = .halt f) :
    run A slots s = f := by
  rw [run]
  split
  · next h' =>
    rw [h] at h'
    cases h'
  · next h' =>
    rw [h] at h'
    cases h'
    rfl

/-! ## Operators -/

variable {operands : List Value} {label : Label} {outer : List Label} {code : List Operator}

theorem run_localGet {index : UInt32} {v : Value} (h : slots[index.toNat]? = some v) :
    run A slots ⟨operands, label :: outer, .localGet index :: code⟩ =
      run A slots ⟨v :: operands, label :: outer, code⟩ :=
  run_of_next (by simp only [step, stepOperator, h])

theorem run_numeric {op : MachineOp} {a b v : Value}
    (h : A.apply op.arith op.valType a b = some v) :
    run A slots ⟨b :: a :: operands, label :: outer, .numeric op :: code⟩ =
      run A slots ⟨v :: operands, label :: outer, code⟩ :=
  run_of_next (by simp only [step, stepOperator, h])

theorem run_numeric_trap {op : MachineOp} {a b : Value}
    (h : A.apply op.arith op.valType a b = none) :
    run A slots ⟨b :: a :: operands, label :: outer, .numeric op :: code⟩ = .trapped :=
  run_of_halt (by simp only [step, stepOperator, h])

theorem run_cond_zero (result : Option ValType) :
    run A slots ⟨.i32 0 :: operands, label :: outer, .cond result :: code⟩ =
      run A slots ⟨[], ⟨result.toList.length, operands⟩ :: label :: outer, otherwise 0 code⟩ :=
  run_of_next rfl

theorem run_cond {n : Int32} (h : n ≠ 0) (result : Option ValType) :
    run A slots ⟨.i32 n :: operands, label :: outer, .cond result :: code⟩ =
      run A slots ⟨[], ⟨result.toList.length, operands⟩ :: label :: outer, code⟩ :=
  run_of_next (by simp only [step, stepOperator, h, ite_false])

theorem run_branch {depth : Nat} {target : Label} (h : (label :: outer)[depth]? = some target)
    (ha : target.arity ≤ operands.length) :
    run A slots ⟨operands, label :: outer, .branch depth :: code⟩ =
      run A slots ⟨operands.take target.arity ++ target.operands, (label :: outer).drop (depth + 1),
        behindEnd depth code⟩ :=
  run_of_next (by simp only [step, stepOperator, h, ha, ite_true])

end

end TreeWasm.Wasm.Execution
