-- SUMMARY: What code of an effect does to the innermost frame of the checker, and how frames then close.
import TreeWasm.Proofs.Typing.Effect
import TreeWasm.Wasm.Validation.Body

/-!
# Effects on the checker

The checker keeps the operands of each open frame. Code that leaves a value pushes its type. Behind
a branch the operands of the frame are forgotten, and then any number of any types can be taken:
such a frame is *dead*. `Yields` says what a frame may look like behind code of an effect, and the
lemmas below say that a dead frame is never in the way of what comes next.
-/

namespace TreeWasm.Wasm.Validation

/-! ## Frames -/

namespace Control

/-- The frame behind a branch. -/
def dead (c : Control) : Control := { c with operands := [], unreachable := true }

/-- The frame with one more operand. -/
def pushed (c : Control) (t : ValType) : Control :=
  { c with operands := .known t :: c.operands }

/-- The frame with the value of a result, if there is one. -/
def finished (c : Control) : Option ValType → Control
  | some t => c.pushed t
  | none => c

@[simp] theorem dead_pushed (c : Control) (t : ValType) : (c.pushed t).dead = c.dead := rfl

@[simp] theorem dead_dead (c : Control) : c.dead.dead = c.dead := rfl

end Control

theorem pop_pushed (types : Types) (t : ValType) (c : Control) (cs : Controls) :
    pop types t (c.pushed t :: cs) = .ok (c :: cs) := by
  simp only [pop, Control.pushed, checkOperand, Types.isSubtype_refl]
  rfl

theorem pop_dead (types : Types) (t : ValType) (c : Control) (cs : Controls) :
    pop types t (c.dead :: cs) = .ok (c.dead :: cs) := rfl

theorem popAll_none (types : Types) (cs : Controls) :
    popAll types (none : Option ValType).toList cs = .ok cs := rfl

theorem popAll_some (types : Types) (t : ValType) (cs : Controls) :
    popAll types (some t).toList cs = pop types t cs := by
  show (pop types t cs >>= fun cs => pure cs) = _
  exact bind_pure _

theorem leave_result (result : Option ValType) (c : Control) (cs : Controls) :
    leave result.toList (c :: cs) = .ok (c.finished result :: cs) := by
  cases result <;> rfl

/-! ## Yields -/

/-- What a frame `c` may have become behind code of an effect. -/
inductive Yields (c : Control) : Effect → Control → Prop where
  | dead (e : Effect) : Yields c e c.dead
  | void : Yields c .void c
  | value (t : ValType) : Yields c (.value t) (c.pushed t)
  | deadValue (t : ValType) : Yields c (.value t) (c.dead.pushed t)

namespace Yields

variable {c c₁ c₂ : Control} {e : Effect} {t : ValType} {result : Option ValType}
  (types : Types) (cs : Controls)

theorem finished (c : Control) (result : Option ValType) :
    Yields c (.ofResult result) (c.finished result) := by
  cases result with
  | none => exact .void
  | some t => exact .value t

/-- The code before may be any that leaves nothing. -/
theorem after (h : Yields c .void c₁) (h' : Yields c₁ e c₂) : Yields c e c₂ := by
  cases h with
  | void => exact h'
  | dead =>
    cases h' with
    | dead => exact .dead _
    | void => exact .dead _
    | value t => exact .deadValue t
    | deadValue t => exact .deadValue t

/-- The code behind may be any that leaves nothing. -/
theorem before (h : Yields c e c₁) (h' : Yields c₁ .void c₂) : Yields c e c₂ := by
  cases h' with
  | void => exact h
  | dead => cases h <;> exact .dead _

/-- Only the operands change. -/
theorem same (h : Yields c e c₁) :
    c₁.construct = c.construct ∧ c₁.arrow = c.arrow ∧ c₁.stored = c.stored := by
  cases h <;> exact ⟨rfl, rfl, rfl⟩

/-- Behind a branch nothing tells what was there before. -/
theorem dead_eq (h : Yields c e c₁) : c₁.dead = c.dead := by
  cases h <;> rfl

/-- Code that leaves nothing, or never completes, leaves nothing. -/
theorem void_of_fits (h : Yields c e c₁) (he : e.Fits none) : Yields c .void c₁ := by
  rcases he with rfl | rfl
  · exact h
  · cases h
    exact .dead _

/-- Where a value is due it can be taken, and then nothing of the code is left. -/
theorem pop (h : Yields c e c₁) (he : e.Fits (some t)) :
    ∃ c₂, Validation.pop types t (c₁ :: cs) = .ok (c₂ :: cs) ∧ Yields c .void c₂ := by
  rcases he with rfl | rfl
  · cases h with
    | dead => exact ⟨c.dead, pop_dead types _ c cs, .dead _⟩
    | value => exact ⟨c, pop_pushed types t c cs, .void⟩
    | deadValue => exact ⟨c.dead, pop_pushed types t c.dead cs, .dead _⟩
  · cases h
    exact ⟨c.dead, pop_dead types _ c cs, .dead _⟩

theorem popAll (h : Yields c e c₁) (he : e.Fits result) :
    ∃ c₂, Validation.popAll types result.toList (c₁ :: cs) = .ok (c₂ :: cs) ∧
      Yields c .void c₂ := by
  cases result with
  | none => exact ⟨c₁, popAll_none types _, h.void_of_fits he⟩
  | some t =>
    obtain ⟨c₂, hc, hy⟩ := h.pop types cs he
    exact ⟨c₂, by rw [popAll_some, hc], hy⟩

/-- Whatever is left can be dropped. -/
theorem popOperand (h : Yields c (.value t) c₁) :
    ∃ o c₂, Validation.popOperand (c₁ :: cs) = .ok (o, c₂ :: cs) ∧ Yields c .void c₂ := by
  cases h with
  | dead => exact ⟨.unknown, c.dead, rfl, .dead _⟩
  | value => exact ⟨.known t, c, rfl, .void⟩
  | deadValue => exact ⟨.known t, c.dead, rfl, .dead _⟩

/-- The code of a frame that ends with the result of the frame can be closed. -/
theorem close (h : Yields c e c₁) (he : e.Fits result) (hc : c.operands = [])
    (hr : c.arrow.results = result.toList) :
    ∃ c₂, Validation.close types (c₁ :: cs) = .ok (c₂, cs) ∧ c₂.construct = c.construct ∧
      c₂.arrow = c.arrow := by
  obtain ⟨c₂, hpop, hy⟩ := h.popAll types cs he
  have hempty : c₂.operands = [] := by
    cases hy with
    | dead => rfl
    | void => exact hc
  refine ⟨c₂, ?_, hy.same.1, hy.same.2.1⟩
  simp only [Validation.close, h.same.2.1, hr, hpop, bind, Except.bind, hempty]
  rfl

end Yields

end TreeWasm.Wasm.Validation
