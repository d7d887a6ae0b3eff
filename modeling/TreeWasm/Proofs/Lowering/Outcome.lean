-- SUMMARY: What lowering comes to under given frames, with one equation for each kind of instruction.
import TreeWasm.Lowering.Body

/-!
# Outcomes of lowering

Lowering threads a stack of open frames, and it gives the stack back as it found it, whatever it
comes to (`Instruction.restores_lower`). What an instruction becomes is therefore a function of the
frames around it, `Instruction.lowerIn`, and the equations below say how it depends on the parts of
the instruction. Nothing after this file opens the monad again.
-/

namespace TreeWasm

/-! ## Frames -/

theorem Frame.label?_eq_some_iff {f : Frame} {label : String} :
    f.label? = some label ↔ f.kind = .block label := by
  rcases f with ⟨_ | _, _⟩ <;> simp [Frame.label?]

namespace FrameStack

theorem distance_eq_ok_iff {s : FrameStack} {label : String} {depth : Nat} :
    s.distance label = .ok depth ↔ s.frames.findIdx? (·.label? == some label) = some depth := by
  unfold distance
  cases s.frames.findIdx? (·.label? == some label) <;> simp

/-- A label leads to the innermost block that carries it, whatever the label. It never leads to an
if. -/
theorem distance_iff (s : FrameStack) (label : String) (depth : Nat) :
    s.distance label = .ok depth ↔
      s.frames[depth]?.map Frame.kind = some (.block label) ∧
        ∀ d < depth, s.frames[d]?.map Frame.kind ≠ some (.block label) := by
  rw [distance_eq_ok_iff, List.findIdx?_eq_some_iff_getElem]
  simp only [beq_iff_eq, Frame.label?_eq_some_iff]
  constructor
  · rintro ⟨hlt, hat, hbefore⟩
    refine ⟨by rw [List.getElem?_eq_getElem hlt, Option.map_some, hat], fun d hd hkind => ?_⟩
    rw [List.getElem?_eq_getElem (Nat.lt_trans hd hlt), Option.map_some] at hkind
    exact hbefore d hd (Option.some.inj hkind)
  · rintro ⟨hat, hbefore⟩
    obtain ⟨f, hf, hkind⟩ := Option.map_eq_some_iff.1 hat
    obtain ⟨hlt, rfl⟩ := List.getElem?_eq_some_iff.1 hf
    refine ⟨hlt, hkind, fun d hd hfound => hbefore d hd ?_⟩
    rw [List.getElem?_eq_getElem (Nat.lt_trans hd hlt), Option.map_some, hfound]

/-- A block that was just entered is where its label leads. -/
theorem distance_enter_self (label : String) (frames : FrameStack) :
    (frames.enter (.block label)).distance label = .ok 0 := by
  simp [distance, enter, Frame.label?, List.findIdx?_cons]

/-- Any other frame that is entered lies between here and where a label leads. -/
theorem distance_enter_iff {kind : Frame.Kind} {label : String} (h : kind ≠ .block label)
    (frames : FrameStack) (d : Nat) :
    (frames.enter kind).distance label = .ok d ↔
      ∃ d', frames.distance label = .ok d' ∧ d = d' + 1 := by
  have hk : ((⟨kind, frames.depth⟩ : Frame).label? == some label) = false := by
    cases kind with
    | block label' => simpa [Frame.label?] using h
    | cond => rfl
  unfold distance enter
  rw [List.findIdx?_cons, hk]
  cases frames.frames.findIdx? (·.label? == some label) with
  | none => simp
  | some i => simp [eq_comm]

end FrameStack

/-- Steps that may be refused are accepted together if each of them is. -/
theorem bind_eq_ok_iff {x : Except ε α} {f : α → Except ε β} {b : β} :
    (x >>= f) = .ok b ↔ ∃ a, x = .ok a ∧ f a = .ok b := by
  cases x with
  | error _ => exact ⟨nofun, nofun⟩
  | ok a => exact ⟨fun h => ⟨a, rfl, h⟩, fun ⟨_, ha, h⟩ => by cases ha; exact h⟩

theorem exists_unit_iff {p : Unit → Prop} : (∃ u, p u) ↔ p () :=
  ⟨fun ⟨(), h⟩ => h, fun h => ⟨(), h⟩⟩

namespace Lowering

/-! ## Computations -/

/-- What a computation comes to under the given frames. -/
def outcome (c : Lowering α) (frames : FrameStack) : Except Refusal α := (c.on frames).1

/-- The frames that are open after the computation are those before it. -/
def Restores (c : Lowering α) : Prop := ∀ frames, (c.on frames).2 = frames

theorem on_bind (c : Lowering α) (f : α → Lowering β) (frames : FrameStack) :
    (c >>= f).on frames =
      match c.on frames with
      | (.ok a, after) => (f a).on after
      | (.error refusal, after) => (.error refusal, after) := by
  show (ExceptT.bind c f) frames = _
  unfold ExceptT.bind ExceptT.mk
  show (ExceptT.bindCont f (c frames).1) (c frames).2 = _
  unfold Lowering.on
  rcases c frames with ⟨_ | _, _⟩ <;> rfl

theorem restores_pure (a : α) : Restores (pure a : Lowering α) := fun _ => rfl

theorem restores_throw (refusal : Refusal) : Restores (throw refusal : Lowering α) := fun _ => rfl

theorem restores_liftM (c : Except Refusal α) : Restores (liftM c : Lowering α) := by
  intro frames
  cases c <;> rfl

theorem restores_bind {c : Lowering α} {f : α → Lowering β} (hc : Restores c)
    (hf : ∀ a, Restores (f a)) : Restores (c >>= f) := by
  intro frames
  have h := hc frames
  rw [on_bind]
  cases run : c.on frames with
  | mk result after =>
    rw [run] at h
    subst h
    cases result with
    | error _ => rfl
    | ok a => exact hf a after

theorem restores_resolve (label : String) : Restores (resolve label) := by
  intro frames
  show (resolve label frames).2 = frames
  unfold resolve
  show ((liftM (frames.distance label) : Lowering Nat) frames).2 = frames
  cases frames.distance label <;> rfl

/-- A frame that was opened for a body is closed behind it, and the body comes to what it comes
to. -/
theorem on_within {body : Lowering α} (kind : Frame.Kind) (h : Restores body)
    (frames : FrameStack) :
    (within kind body).on frames = (outcome body (frames.enter kind), frames) := by
  have inner : body (frames.enter kind) = (outcome body (frames.enter kind), frames.enter kind) :=
    Prod.ext rfl (h (frames.enter kind))
  show within kind body frames = _
  unfold within
  rw [inner]
  rfl

theorem restores_within {body : Lowering α} (kind : Frame.Kind) (h : Restores body) :
    Restores (within kind body) := by
  intro frames
  rw [on_within kind h]

@[simp] theorem outcome_pure (a : α) (frames : FrameStack) :
    outcome (pure a : Lowering α) frames = .ok a := rfl

@[simp] theorem outcome_throw (refusal : Refusal) (frames : FrameStack) :
    outcome (throw refusal : Lowering α) frames = .error refusal := rfl

@[simp] theorem outcome_liftM (c : Except Refusal α) (frames : FrameStack) :
    outcome (liftM c : Lowering α) frames = c := by
  cases c <;> rfl

theorem outcome_bind {c : Lowering α} (hc : Restores c) (f : α → Lowering β)
    (frames : FrameStack) :
    outcome (c >>= f) frames = (outcome c frames >>= fun a => outcome (f a) frames) := by
  have h := hc frames
  unfold outcome
  rw [on_bind]
  cases run : c.on frames with
  | mk result after =>
    rw [run] at h
    subst h
    cases result <;> rfl

@[simp] theorem outcome_resolve (label : String) (frames : FrameStack) :
    outcome (resolve label) frames = frames.distance label := by
  show (resolve label frames).1 = _
  unfold resolve
  show ((liftM (frames.distance label) : Lowering Nat) frames).1 = _
  cases frames.distance label <;> rfl

theorem outcome_within {body : Lowering α} (kind : Frame.Kind) (h : Restores body)
    (frames : FrameStack) :
    outcome (within kind body) frames = outcome body (frames.enter kind) := by
  show ((within kind body).on frames).1 = _
  rw [on_within kind h]

end Lowering

/-! ## Instructions -/

namespace Instruction

open Lowering

mutual

/-- Lowering an instruction gives the frames back as they were, also when it refuses. -/
theorem restores_lower : ∀ i : Instruction, Restores i.lower
  | .constInt32 _ | .constFloat64 _ | .constBool _ => by
    unfold lower
    exact restores_pure _
  | .localGet .. => by
    unfold lower
    exact restores_bind (restores_liftM _) fun _ => restores_pure _
  | .block label _ children => by
    unfold lower
    apply restores_bind (restores_liftM _)
    intro _
    exact restores_bind (restores_within (.block label) (restores_lowerAll children))
      fun _ => restores_pure _
  | .binaryOp _ _ lhs rhs => by
    unfold lower
    apply restores_bind (restores_lower lhs)
    intro _
    apply restores_bind (restores_lower rhs)
    intro _
    exact restores_bind (restores_liftM _) fun _ => restores_pure _
  | .breakTo label => by
    unfold lower
    exact restores_bind (restores_resolve label) fun _ => restores_pure _
  | .breakWith label value => by
    unfold lower
    apply restores_bind (restores_lower value)
    intro _
    exact restores_bind (restores_resolve label) fun _ => restores_pure _
  | .ifThen condition thenBody => by
    unfold lower
    apply restores_bind (restores_lower condition)
    intro _
    apply restores_bind (restores_liftM _)
    intro _
    exact restores_bind (restores_within .cond (restores_lower thenBody)) fun _ => restores_pure _
  | .ifElse condition thenBody elseBody => by
    unfold lower
    apply restores_bind (restores_lower condition)
    intro _
    apply restores_bind (restores_liftM _)
    intro _
    refine restores_bind (restores_within .cond ?_) fun _ => restores_pure _
    apply restores_bind (restores_lower thenBody)
    intro _
    exact restores_bind (restores_lower elseBody) fun _ => restores_pure _
  | .storeLocal .. | .propertyAccess .. | .propertyAssignment .. | .containerAlloc _
  | .stackAlloc _ | .stackFree _ => by
    unfold lower
    exact restores_throw _

theorem restores_lowerAll : ∀ is : List Instruction, Restores (lowerAll is)
  | [] => by
    unfold lowerAll
    exact restores_pure _
  | i :: is => by
    unfold lowerAll
    apply restores_bind (restores_lower i)
    intro _
    exact restores_bind (restores_lowerAll is) fun _ => restores_pure _

end

/-- The machine node of an instruction under the given frames. -/
def lowerIn (frames : FrameStack) (i : Instruction) : Except Refusal Node :=
  i.lower.outcome frames

/-- The machine nodes of a sequence of instructions under the given frames. -/
def lowerAllIn (frames : FrameStack) (is : List Instruction) : Except Refusal (List Node) :=
  (lowerAll is).outcome frames

theorem on_lower (i : Instruction) (frames : FrameStack) :
    i.lower.on frames = (i.lowerIn frames, frames) :=
  Prod.ext rfl (restores_lower i frames)

section

variable (frames : FrameStack)

@[simp] theorem lowerIn_constInt32 (value : Int32) :
    (constInt32 value).lowerIn frames = .ok (.constI32 value) := rfl

@[simp] theorem lowerIn_constFloat64 (value : Binary64) :
    (constFloat64 value).lowerIn frames = .ok (.constF64 value) := rfl

@[simp] theorem lowerIn_constBool (value : Bool) :
    (constBool value).lowerIn frames = .ok (.constI32 (if value then 1 else 0)) := rfl

theorem lowerIn_localGet (index : UInt32) (type : ValueType) :
    (localGet index type).lowerIn frames = return .localGet index (← type.machineType) := by
  unfold lowerIn lower
  rw [outcome_bind (restores_liftM _), outcome_liftM]
  rfl

theorem lowerIn_block (label : String) (type : ValueType) (children : List Instruction) :
    (block label type children).lowerIn frames = do
      let machineType ← type.machineType
      let nodes ← lowerAllIn (frames.enter (.block label)) children
      return .block label machineType nodes := by
  have inner := restores_lowerAll children
  unfold lowerIn lower
  rw [outcome_bind (restores_liftM _), outcome_liftM]
  congr 1
  funext machineType
  rw [outcome_bind (restores_within _ inner), outcome_within _ inner]
  rfl

theorem lowerIn_binaryOp (op : Arith) (type : ValueType) (lhs rhs : Instruction) :
    (binaryOp op type lhs rhs).lowerIn frames = do
      let l ← lhs.lowerIn frames
      let r ← rhs.lowerIn frames
      return .binary (← op.machineOp type) l r := by
  unfold lowerIn
  rw [lower, outcome_bind (restores_lower lhs)]
  congr 1
  funext l
  rw [outcome_bind (restores_lower rhs)]
  congr 1
  funext r
  rw [outcome_bind (restores_liftM _), outcome_liftM]
  rfl

theorem lowerIn_breakTo (label : String) :
    (breakTo label).lowerIn frames = return .breakTo label (← frames.distance label) := by
  unfold lowerIn lower
  rw [outcome_bind (restores_resolve label), outcome_resolve]
  rfl

theorem lowerIn_breakWith (label : String) (value : Instruction) :
    (breakWith label value).lowerIn frames = do
      let v ← value.lowerIn frames
      return .breakWith label (← frames.distance label) v := by
  unfold lowerIn
  rw [lower, outcome_bind (restores_lower value)]
  congr 1
  funext v
  rw [outcome_bind (restores_resolve label), outcome_resolve]
  rfl

theorem lowerIn_ifThen (condition thenBody : Instruction) :
    (ifThen condition thenBody).lowerIn frames = do
      let c ← condition.lowerIn frames
      checkCondition c.type
      let t ← thenBody.lowerIn (frames.enter .cond)
      return .ifThen .unreachable c (discard t) := by
  have inner := restores_lower thenBody
  unfold lowerIn
  rw [lower, outcome_bind (restores_lower condition)]
  congr 1
  funext c
  rw [outcome_bind (restores_liftM _), outcome_liftM]
  congr 1
  funext _
  rw [outcome_bind (restores_within _ inner), outcome_within _ inner]
  rfl

theorem lowerIn_ifElse (condition thenBody elseBody : Instruction) :
    (ifElse condition thenBody elseBody).lowerIn frames = do
      let c ← condition.lowerIn frames
      checkCondition c.type
      let t ← thenBody.lowerIn (frames.enter .cond)
      let e ← elseBody.lowerIn (frames.enter .cond)
      return .ifElse (joinType t.type e.type) c t e := by
  have inner : Restores (do return (← lower thenBody, ← lower elseBody)) :=
    restores_bind (restores_lower thenBody) fun _ =>
      restores_bind (restores_lower elseBody) fun _ => restores_pure _
  unfold lowerIn
  rw [lower, outcome_bind (restores_lower condition)]
  congr 1
  funext c
  rw [outcome_bind (restores_liftM _), outcome_liftM]
  congr 1
  funext _
  rw [outcome_bind (restores_within _ inner), outcome_within _ inner,
    outcome_bind (restores_lower thenBody), bind_assoc]
  congr 1
  funext t
  rw [outcome_bind (restores_lower elseBody), bind_assoc]
  rfl

@[simp] theorem lowerAllIn_nil : lowerAllIn frames [] = .ok [] := rfl

theorem lowerAllIn_cons (i : Instruction) (is : List Instruction) :
    lowerAllIn frames (i :: is) = do
      let node ← i.lowerIn frames
      let nodes ← lowerAllIn frames is
      return node :: nodes := by
  unfold lowerAllIn lowerIn
  rw [lowerAll, outcome_bind (restores_lower i)]
  congr 1
  funext node
  rw [outcome_bind (restores_lowerAll is)]
  rfl

end

/-! ## Accepted instructions -/

section

variable {frames : FrameStack} {n : Node} {ns : List Node}

theorem lowerIn_localGet_iff {index : UInt32} {type : ValueType} :
    (localGet index type).lowerIn frames = .ok n ↔
      ∃ m, type.machineType = .ok m ∧ .localGet index m = n := by
  simp only [lowerIn_localGet, bind_eq_ok_iff, pure, Except.pure, Except.ok.injEq]

theorem lowerIn_block_iff {label : String} {type : ValueType} {children : List Instruction} :
    (block label type children).lowerIn frames = .ok n ↔
      ∃ m, type.machineType = .ok m ∧
        ∃ ns, lowerAllIn (frames.enter (.block label)) children = .ok ns ∧
          .block label m ns = n := by
  simp only [lowerIn_block, bind_eq_ok_iff, pure, Except.pure, Except.ok.injEq]

theorem lowerIn_binaryOp_iff {op : Arith} {type : ValueType} {lhs rhs : Instruction} :
    (binaryOp op type lhs rhs).lowerIn frames = .ok n ↔
      ∃ l, lhs.lowerIn frames = .ok l ∧ ∃ r, rhs.lowerIn frames = .ok r ∧
        ∃ m, op.machineOp type = .ok m ∧ .binary m l r = n := by
  simp only [lowerIn_binaryOp, bind_eq_ok_iff, pure, Except.pure, Except.ok.injEq]

theorem lowerIn_breakTo_iff {label : String} :
    (breakTo label).lowerIn frames = .ok n ↔
      ∃ d, frames.distance label = .ok d ∧ .breakTo label d = n := by
  simp only [lowerIn_breakTo, bind_eq_ok_iff, pure, Except.pure, Except.ok.injEq]

theorem lowerIn_breakWith_iff {label : String} {value : Instruction} :
    (breakWith label value).lowerIn frames = .ok n ↔
      ∃ v, value.lowerIn frames = .ok v ∧ ∃ d, frames.distance label = .ok d ∧
        .breakWith label d v = n := by
  simp only [lowerIn_breakWith, bind_eq_ok_iff, pure, Except.pure, Except.ok.injEq]

theorem lowerIn_ifThen_iff {condition thenBody : Instruction} :
    (ifThen condition thenBody).lowerIn frames = .ok n ↔
      ∃ c, condition.lowerIn frames = .ok c ∧ checkCondition c.type = .ok () ∧
        ∃ t, thenBody.lowerIn (frames.enter .cond) = .ok t ∧
          .ifThen .unreachable c (discard t) = n := by
  simp only [lowerIn_ifThen, bind_eq_ok_iff, exists_unit_iff, pure, Except.pure, Except.ok.injEq]

theorem lowerIn_ifElse_iff {condition thenBody elseBody : Instruction} :
    (ifElse condition thenBody elseBody).lowerIn frames = .ok n ↔
      ∃ c, condition.lowerIn frames = .ok c ∧ checkCondition c.type = .ok () ∧
        ∃ t, thenBody.lowerIn (frames.enter .cond) = .ok t ∧
          ∃ e, elseBody.lowerIn (frames.enter .cond) = .ok e ∧
            .ifElse (joinType t.type e.type) c t e = n := by
  simp only [lowerIn_ifElse, bind_eq_ok_iff, exists_unit_iff, pure, Except.pure, Except.ok.injEq]

theorem lowerAllIn_cons_iff {i : Instruction} {is : List Instruction} :
    lowerAllIn frames (i :: is) = .ok ns ↔
      ∃ n, i.lowerIn frames = .ok n ∧ ∃ ns', lowerAllIn frames is = .ok ns' ∧ n :: ns' = ns := by
  simp only [lowerAllIn_cons, bind_eq_ok_iff, pure, Except.pure, Except.ok.injEq]

end

end Instruction

end TreeWasm
