-- SUMMARY: Lowering leaves the open frames as they were, so one stack serves any number of trees.
import TreeWasm.Proofs.Assembly.Registrations
import TreeWasm.Proofs.Lowering.Faults

/-!
# Restoration of frames

Lowering a tree gives the frames back as they were, accepted or not. Hence a frame is always there
to be closed, none is ever left open at the end of a body, and trees that are lowered one after
another on the same stack do not notice each other (`Instruction.lower_restores`).
-/

namespace TreeWasm

namespace Instruction

/-! ## Frames that are closed -/

/-- The frame that was opened for a sequence is the one that is closed behind it. -/
theorem exit_lowerAll (kind : Frame.Kind) (is : List Instruction) (frames : FrameStack) :
    ((lowerAll is).on (frames.enter kind)).2.exit = .ok (⟨kind, frames.depth⟩, frames) := by
  rw [restores_lowerAll is, FrameStack.exit_enter]

/-- A refusal reports a fault of the tree, not a broken promise about frames. -/
theorem lowerIn_ne_unreachable (i : Instruction) (frames : FrameStack) {refusal : Refusal}
    {context : String} (h : refusal.failure = .unreachable context) :
    i.lowerIn frames ≠ .error refusal := by
  intro hi
  have hfault := i.failure?_lowerIn frames
  rw [hi, failure?, h, eq_comm, Site.firstFault?, List.findSome?_eq_some_iff] at hfault
  obtain ⟨before, s, after, -, hs, -⟩ := hfault
  exact s.fault?_ne_unreachable context hs

end Instruction

/-! ## Functions -/

theorem ValueType.slotType_ne_framesLeftOpen (t : ValueType) (slot : String) :
    t.slotType slot ≠ .error .framesLeftOpen := by
  cases t <;> simp [slotType, machineType, machineType?, MachineType.valType?, bind, Except.bind]

/-- No frame is left open at the end of a body. -/
theorem Function.assembled_ne_framesLeftOpen (f : Function) :
    f.assembled ≠ .error .framesLeftOpen := by
  intro h
  have hmem : Refusal.framesLeftOpen ∈ f.refusals := by
    apply List.mem_of_mem_head?
    rw [← f.refusal?_assembled, h, refusal?, Option.mem_some]
  simp only [refusals, List.mem_append, List.mem_filterMap, Option.mem_toList,
    refusal?_eq_some_iff] at hmem
  rcases hmem with ⟨t, -, hparam⟩ | hresult | hbody | ⟨t, -, hlocal⟩
  · exact t.slotType_ne_framesLeftOpen _ hparam
  · obtain ⟨-, hr⟩ := ValueType.machineType_eq_error_iff.1 hresult
    cases hr
  · exact absurd hbody (f.body.lowerIn_ne_unreachable {} rfl)
  · exact t.slotType_ne_framesLeftOpen _ hlocal

/-! ## Several trees on one stack -/

namespace Instruction

/-- Lower trees one after another on one stack, whatever becomes of each. Gives back the outcomes,
each with the frames that are open after it. -/
def lowerInTurn : List Instruction → FrameStack → List (Except Refusal Node × FrameStack)
  | [], _ => []
  | i :: is, frames =>
    let result := i.lower.on frames
    result :: lowerInTurn is result.2

theorem lowerInTurn_eq (is : List Instruction) (frames : FrameStack) :
    lowerInTurn is frames = is.map fun i => (i.lowerIn frames, frames) := by
  induction is with
  | nil => rfl
  | cons i is ih => simp only [lowerInTurn, i.on_lower, ih, List.map_cons]

/-- Lowering gives the frames back as they were. So frames are closed as they were opened, a body
never leaves one open, and on one stack every tree comes to what it comes to on a stack of its own,
with no frame open after it. -/
theorem lower_restores :
    (∀ (i : Instruction) (frames : FrameStack), (i.lower.on frames).2 = frames) ∧
    (∀ (kind : Frame.Kind) (is : List Instruction) (frames : FrameStack),
      ((lowerAll is).on (frames.enter kind)).2.exit = .ok (⟨kind, frames.depth⟩, frames)) ∧
    (∀ (i : Instruction) (frames : FrameStack),
      (i.lower.on frames).1 ≠ .error .noOpenFrame) ∧
    (∀ f : Function, f.assembled ≠ .error .framesLeftOpen) ∧
    ∀ is : List Instruction, lowerInTurn is {} = is.map (fun i => (i.lowerRoot, {})) ∧
      ∀ result ∈ lowerInTurn is {}, result.2.isBalanced = true := by
  refine ⟨restores_lower, exit_lowerAll, fun i frames => ?_,
    Function.assembled_ne_framesLeftOpen, fun is => ?_⟩
  · exact i.lowerIn_ne_unreachable frames rfl
  · have hturn : lowerInTurn is {} = is.map (fun i => (i.lowerRoot, {})) := lowerInTurn_eq is {}
    refine ⟨hturn, ?_⟩
    intro result hresult
    rw [hturn] at hresult
    obtain ⟨i, -, rfl⟩ := List.mem_map.1 hresult
    rfl

end Instruction

end TreeWasm
