-- SUMMARY: Behind which nodes the checker takes code for unreachable.
import TreeWasm.Proofs.Validation.Soundness

/-!
# Reachability

To the checker, code behind a branch is unreachable up to the end of the frame in which the branch
stands. Whether the code of a node makes what is behind it unreachable can be told from the node
(`Node.diverges`): code is put together in few ways, each of which either keeps its frame reachable
or does not (`Cuts`). What else the code does, and whether the checker accepts it, does not matter
(`Node.cuts_operators`).
-/

namespace TreeWasm

open Wasm Wasm.Validation

/-! ## Frames -/

namespace Wasm.Validation

/-- The frames in front of code and behind it. Those around the innermost one are the same, and the
innermost is unreachable from there on if the code cuts it off. -/
inductive Passes (cut : Bool) : Controls → Controls → Prop where
  | head {c c' : Control} (cs : Controls) (unreachable : c'.unreachable = (c.unreachable || cut)) :
      Passes cut (c :: cs) (c' :: cs)

namespace Passes

variable {cut cut' : Bool} {cs cs' cs'' : Controls} {c : Control}

theorem refl (c : Control) (cs : Controls) : Passes false (c :: cs) (c :: cs) :=
  .head cs (Bool.or_false _).symm

theorem trans (h : Passes cut cs cs') (h' : Passes cut' cs' cs'') :
    Passes (cut || cut') cs cs'' := by
  cases h with
  | head cs hunreachable =>
    cases h' with
    | head _ hunreachable' => exact .head cs (by rw [hunreachable', hunreachable, Bool.or_assoc])

theorem exists_eq (h : Passes cut (c :: cs) cs') : ∃ c', cs' = c' :: cs := by
  cases h
  exact ⟨_, rfl⟩

theorem unreachable_eq {c' : Control} (h : Passes cut (c :: cs) (c' :: cs)) :
    c'.unreachable = (c.unreachable || cut) := by
  cases h with
  | head _ hunreachable => exact hunreachable

end Passes

section

variable {types : Types} {s : Scope} {c : Control} {cs cs' : Controls}

theorem passes_push {t : ValType} (h : push t (c :: cs) = .ok cs') :
    Passes false (c :: cs) cs' := by
  cases h
  exact .head cs (Bool.or_false _).symm

theorem passes_pop {t : ValType} (h : pop types t (c :: cs) = .ok cs') :
    Passes false (c :: cs) cs' := by
  simp only [pop] at h
  split at h
  · obtain ⟨-, -, h⟩ := bind_eq_ok_iff.1 h
    cases h
    exact .head cs (Bool.or_false _).symm
  · split at h
    · cases h
      exact .refl c cs
    · cases h

theorem passes_popOperand {o : Operand} (h : popOperand (c :: cs) = .ok (o, cs')) :
    Passes false (c :: cs) cs' := by
  simp only [popOperand] at h
  split at h
  · cases h
    exact .head cs (Bool.or_false _).symm
  · split at h
    · cases h
      exact .refl c cs
    · cases h

/-- Steps that cut nothing off, one after the other. -/
theorem passes_foldlM {f : Controls → α → Except Cause Controls} {as : List α}
    (hf : ∀ a c cs', f (c :: cs) a = .ok cs' → Passes false (c :: cs) cs')
    (h : as.foldlM f (c :: cs) = .ok cs') : Passes false (c :: cs) cs' := by
  induction as generalizing c with
  | nil =>
    cases h
    exact .refl c cs
  | cons a as ih =>
    rw [List.foldlM_cons] at h
    obtain ⟨cs₁, h₁, h⟩ := bind_eq_ok_iff.1 h
    have hfirst := hf a c cs₁ h₁
    obtain ⟨c₁, rfl⟩ := hfirst.exists_eq
    exact hfirst.trans (ih h)

theorem passes_popAll {ts : List ValType} (h : popAll types ts (c :: cs) = .ok cs') :
    Passes false (c :: cs) cs' := passes_foldlM (fun _ _ _ h => passes_pop h) h

theorem passes_leave {ts : List ValType} (h : leave ts (c :: cs) = .ok cs') :
    Passes false (c :: cs) cs' := passes_foldlM (fun _ _ _ h => passes_push h) h

theorem eq_of_close {c' : Control} (h : close types (c :: cs) = .ok (c', cs')) : cs' = cs := by
  obtain ⟨cs₁, h₁, h⟩ := bind_eq_ok_iff.1 h
  obtain ⟨c₁, rfl⟩ := (passes_popAll h₁).exists_eq
  split at h
  · cases h
  · next heq =>
    cases heq
    split at h
    · cases h
      rfl
    · cases h

/-! ## Operators -/

/-- Wherever the code passes the checker, it ends in the frame in which it started, and it cuts off
what is behind it or does not. -/
def Cuts (s : Scope) (cut : Bool) (ops : List Operator) : Prop :=
  ∀ ⦃c cs cs'⦄, stepsBasic s (c :: cs) ops = .ok cs' → Passes cut (c :: cs) cs'

theorem stepsBasic_append_eq_ok_iff {xs ys : List Operator} :
    stepsBasic s cs (xs ++ ys) = .ok cs' ↔
      ∃ cs₁, stepsBasic s cs xs = .ok cs₁ ∧ stepsBasic s cs₁ ys = .ok cs' := by
  rw [stepsBasic_append, bind_eq_ok_iff]

theorem stepsBasic_cons_eq_ok_iff {op : Operator} {ops : List Operator} :
    stepsBasic s cs (op :: ops) = .ok cs' ↔
      ∃ cs₁, stepBasic s cs op = .ok cs₁ ∧ stepsBasic s cs₁ ops = .ok cs' := by
  rw [stepsBasic_cons, bind_eq_ok_iff]

/-- The types of what a frame takes and leaves, if it takes nothing. -/
theorem params_of_blockArrow {result : Option ValType} {arrow : FuncType}
    (h : s.blockArrow (.result result) = .ok arrow) : arrow.params = [] := by
  cases result with
  | none =>
    cases h
    rfl
  | some t =>
    obtain ⟨t', -, h⟩ := bind_eq_ok_iff.1 h
    cases h
    rfl

theorem eq_of_openFrame {construct : Construct} {arrow : FuncType} (ht : arrow.params = [])
    (h : openFrame types construct arrow (c :: cs) = .ok cs') :
    cs' = .opened construct arrow :: c :: cs := by
  unfold openFrame at h
  rw [ht] at h
  cases h
  rfl

theorem eq_of_block {result : Option ValType}
    (h : stepBasic s (c :: cs) (.block result) = .ok cs') : ∃ inner, cs' = inner :: c :: cs := by
  obtain ⟨arrow, harrow, h⟩ := bind_eq_ok_iff.1 h
  exact ⟨_, eq_of_openFrame (params_of_blockArrow harrow) h⟩

/-- An if takes its condition from the frame around it. -/
theorem eq_of_cond {result : Option ValType} (h : stepBasic s (c :: cs) (.cond result) = .ok cs') :
    ∃ inner c₁, Passes false (c :: cs) (c₁ :: cs) ∧ cs' = inner :: c₁ :: cs := by
  obtain ⟨arrow, harrow, h⟩ := bind_eq_ok_iff.1 h
  obtain ⟨cs₁, h₁, h⟩ := bind_eq_ok_iff.1 h
  have hpop := passes_pop h₁
  obtain ⟨c₁, rfl⟩ := hpop.exists_eq
  exact ⟨_, c₁, hpop, eq_of_openFrame (params_of_blockArrow harrow) h⟩

theorem eq_of_alternative (h : stepBasic s (c :: cs) .alternative = .ok cs') :
    ∃ c', cs' = c' :: cs := by
  obtain ⟨⟨c₁, cs₁⟩, hclose, hrest⟩ := bind_eq_ok_iff.1 h
  obtain rfl := eq_of_close hclose
  dsimp only at hrest
  split at hrest
  · cases hrest
    exact ⟨_, rfl⟩
  · cases hrest

/-- Whatever has become of a frame, the frame around it is only given its results. -/
theorem passes_finish {inner : Control} (h : stepBasic s (inner :: c :: cs) .finish = .ok cs') :
    Passes false (c :: cs) cs' := by
  obtain ⟨⟨c₁, cs₁⟩, hclose, hrest⟩ := bind_eq_ok_iff.1 h
  obtain rfl := eq_of_close hclose
  dsimp only at hrest
  split at hrest
  · obtain ⟨⟨c₂, cs₂⟩, hclose', hrest⟩ := bind_eq_ok_iff.1 hrest
    obtain rfl := eq_of_close hclose'
    exact passes_leave hrest
  · exact passes_leave hrest

namespace Cuts

variable {cut cut' : Bool} {xs ys : List Operator}

/-! ## Single operators -/

theorem constI32 (value : Int32) : Cuts s false [.constI32 value] := fun _ _ _ h => passes_push h

theorem constF64 (value : Binary64) : Cuts s false [.constF64 value] := fun _ _ _ h => passes_push h

theorem localGet (index : UInt32) : Cuts s false [.localGet index] := by
  intro c cs cs' h
  rw [stepsBasic_singleton] at h
  obtain ⟨t, -, h⟩ := bind_eq_ok_iff.1 h
  split at h
  · exact passes_push h
  · cases h

theorem numeric (op : MachineOp) : Cuts s false [.numeric op] := by
  intro c cs cs' h
  rw [stepsBasic_singleton] at h
  obtain ⟨cs₁, h₁, h⟩ := bind_eq_ok_iff.1 h
  obtain ⟨cs₂, h₂, h⟩ := bind_eq_ok_iff.1 h
  have hpop := passes_pop h₁
  obtain ⟨c₁, rfl⟩ := hpop.exists_eq
  have hpop' := passes_pop h₂
  obtain ⟨c₂, rfl⟩ := hpop'.exists_eq
  exact (hpop.trans hpop').trans (passes_push h)

theorem drop : Cuts s false [.drop] := by
  intro c cs cs' h
  rw [stepsBasic_singleton] at h
  obtain ⟨⟨o, cs₁⟩, h₁, h⟩ := bind_eq_ok_iff.1 h
  cases h
  exact passes_popOperand h₁

theorem branch (depth : Nat) : Cuts s true [.branch depth] := by
  intro c cs cs' h
  rw [stepsBasic_singleton] at h
  obtain ⟨label, -, h⟩ := bind_eq_ok_iff.1 h
  obtain ⟨cs₁, h₁, h⟩ := bind_eq_ok_iff.1 h
  cases h
  have hpop := passes_popAll h₁
  obtain ⟨c₁, rfl⟩ := hpop.exists_eq
  exact hpop.trans (.head cs (Bool.or_true _).symm)

/-! ## Code that is put together -/

theorem nil : Cuts s false [] := by
  intro c cs cs' h
  cases h
  exact .refl c cs

theorem append (h : Cuts s cut xs) (h' : Cuts s cut' ys) : Cuts s (cut || cut') (xs ++ ys) := by
  intro c cs cs' hrun
  obtain ⟨cs₁, hx, hy⟩ := stepsBasic_append_eq_ok_iff.1 hrun
  have hpass := h hx
  obtain ⟨c₁, rfl⟩ := hpass.exists_eq
  exact hpass.trans (h' hy)

/-- A frame that is left cuts nothing off, whatever is inside. -/
theorem block (result : Option ValType) (h : Cuts s cut xs) :
    Cuts s false (.block result :: (xs ++ [.finish])) := by
  intro c cs cs' hrun
  obtain ⟨cs₀, hblock, hrun⟩ := stepsBasic_cons_eq_ok_iff.1 hrun
  obtain ⟨inner, rfl⟩ := eq_of_block hblock
  obtain ⟨cs₁, hx, hfinish⟩ := stepsBasic_append_eq_ok_iff.1 hrun
  obtain ⟨c₁, rfl⟩ := (h hx).exists_eq
  rw [stepsBasic_singleton] at hfinish
  exact passes_finish hfinish

theorem ifThen (result : Option ValType) (h : Cuts s cut xs) :
    Cuts s false (.cond result :: (xs ++ [.finish])) := by
  intro c cs cs' hrun
  obtain ⟨cs₁, hcond, hrun⟩ := stepsBasic_cons_eq_ok_iff.1 hrun
  obtain ⟨inner, c₁, hpop, rfl⟩ := eq_of_cond hcond
  obtain ⟨cs₂, hx, hfinish⟩ := stepsBasic_append_eq_ok_iff.1 hrun
  obtain ⟨c₂, rfl⟩ := (h hx).exists_eq
  rw [stepsBasic_singleton] at hfinish
  exact hpop.trans (passes_finish hfinish)

theorem ifElse (result : Option ValType) (h : Cuts s cut xs) (h' : Cuts s cut' ys) :
    Cuts s false (.cond result :: (xs ++ .alternative :: (ys ++ [.finish]))) := by
  intro c cs cs' hrun
  obtain ⟨cs₁, hcond, hrun⟩ := stepsBasic_cons_eq_ok_iff.1 hrun
  obtain ⟨inner, c₁, hpop, rfl⟩ := eq_of_cond hcond
  obtain ⟨cs₂, hx, hrun⟩ := stepsBasic_append_eq_ok_iff.1 hrun
  obtain ⟨c₂, rfl⟩ := (h hx).exists_eq
  obtain ⟨cs₃, halternative, hrun⟩ := stepsBasic_cons_eq_ok_iff.1 hrun
  obtain ⟨c₃, rfl⟩ := eq_of_alternative halternative
  obtain ⟨cs₄, hy, hfinish⟩ := stepsBasic_append_eq_ok_iff.1 hrun
  obtain ⟨c₄, rfl⟩ := (h' hy).exists_eq
  rw [stepsBasic_singleton] at hfinish
  exact hpop.trans (passes_finish hfinish)

end Cuts

end

end Wasm.Validation

/-! ## Nodes -/

namespace Node

/-- A branch is come to in any case, and not inside a frame that the node opens itself. -/
def diverges : Node → Bool
  | .constI32 _ | .constF64 _ | .localGet .. | .block .. => false
  | .binary _ lhs rhs => lhs.diverges || rhs.diverges
  | .breakTo .. | .breakWith .. => true
  | .ifThen _ condition _ | .ifElse _ condition _ _ => condition.diverges
  | .drop value => value.diverges

mutual

/-- The code of a node cuts off what is behind it exactly if the node diverges. -/
theorem cuts_operators (s : Scope) (n : Node) : Cuts s n.diverges n.operators := by
  cases n with
  | constI32 value => exact .constI32 value
  | constF64 value => exact .constF64 value
  | localGet index => exact .localGet index
  | block label type children =>
    obtain ⟨cut, hchildren⟩ := cuts_operatorsAll s children
    rw [operators_block]
    exact .block _ hchildren
  | binary op lhs rhs =>
    rw [operators_binary, diverges, ← Bool.or_false rhs.diverges]
    exact (cuts_operators s lhs).append ((cuts_operators s rhs).append (.numeric op))
  | breakTo label depth => exact .branch depth
  | breakWith label depth value =>
    rw [operators_breakWith, diverges, ← Bool.or_true value.diverges]
    exact (cuts_operators s value).append (.branch depth)
  | ifThen type condition thenBody =>
    rw [operators_ifThen, diverges, ← Bool.or_false condition.diverges]
    exact (cuts_operators s condition).append (.ifThen _ (cuts_operators s thenBody))
  | ifElse type condition thenBody elseBody =>
    rw [operators_ifElse, diverges, ← Bool.or_false condition.diverges]
    exact (cuts_operators s condition).append
      (.ifElse _ (cuts_operators s thenBody) (cuts_operators s elseBody))
  | drop value =>
    rw [operators_drop, diverges, ← Bool.or_false value.diverges]
    exact (cuts_operators s value).append .drop

theorem cuts_operatorsAll (s : Scope) (ns : List Node) : ∃ cut, Cuts s cut (operatorsAll ns) := by
  cases ns with
  | nil => exact ⟨false, .nil⟩
  | cons n ns =>
    obtain ⟨cut, hns⟩ := cuts_operatorsAll s ns
    rw [operatorsAll_cons]
    exact ⟨_, (cuts_operators s n).append hns⟩

end

end Node

end TreeWasm
