-- SUMMARY: What a tree is lowered to does not depend on frames and instructions further out.
import TreeWasm.Proofs.Lowering.Faults

/-!
# Outer frames

Labels are looked for from the innermost frame outward, and depths are counted from there. So frames
further out are of no concern to a tree that is accepted without them, whatever labels they carry
(`Instruction.lowerIn_of_prefix`). With no frames around it, an accepted tree has one node wherever
it is put (`Instruction.lowerIn_of_lowerRoot`).
-/

namespace TreeWasm

open Wasm

/-! ## Frames -/

namespace FrameStack

/-- The frames of a stack, opened once more inside those of another. -/
def inside (inner outer : FrameStack) : FrameStack :=
  inner.frames.foldr (fun f s => s.enter f.kind) outer

theorem labels_inside (inner outer : FrameStack) :
    (inner.inside outer).labels = inner.labels ++ outer.labels := by
  rcases inner with ⟨frames⟩
  induction frames with
  | nil => rfl
  | cons f fs ih =>
    show f.label? :: (FrameStack.inside ⟨fs⟩ outer).labels = _
    rw [ih]
    rfl

theorem labels_enter_prefix {inner whole : FrameStack} (kind : Frame.Kind)
    (h : inner.labels <+: whole.labels) : (inner.enter kind).labels <+: (whole.enter kind).labels :=
  List.cons_prefix_cons.2 ⟨rfl, h⟩

/-- The innermost block with a label stays the innermost one. -/
theorem distance_of_prefix {inner whole : FrameStack} (h : inner.labels <+: whole.labels)
    {label : String} {depth : Nat} (hd : inner.distance label = .ok depth) :
    whole.distance label = .ok depth := by
  have hfind (s : FrameStack) : s.frames.findIdx? (·.label? == some label) =
      s.labels.findIdx? (· == some label) := by
    unfold labels
    rw [List.findIdx?_map]
    rfl
  obtain ⟨outer, houter⟩ := h
  rw [distance_eq_ok_iff, hfind] at hd ⊢
  rw [← houter, List.findIdx?_append, hd]
  rfl

end FrameStack

/-! ## Trees under more frames -/

namespace Instruction

mutual

/-- An accepted tree stays what it is when there are more frames further out. -/
theorem lowerIn_of_prefix (i : Instruction) {inner whole : FrameStack} {n : Node}
    (hl : inner.labels <+: whole.labels) (h : i.lowerIn inner = .ok n) :
    i.lowerIn whole = .ok n := by
  cases i with
  | constInt32 | constFloat64 | constBool => exact h
  | localGet => exact lowerIn_localGet_iff.2 (lowerIn_localGet_iff.1 h)
  | block label type children =>
    obtain ⟨m, hm, ns, hns, rfl⟩ := lowerIn_block_iff.1 h
    have hl' := FrameStack.labels_enter_prefix (.block label) hl
    have hns' := lowerAllIn_of_prefix children hl' hns
    exact lowerIn_block_iff.2 ⟨m, hm, ns, hns', rfl⟩
  | binaryOp op type lhs rhs =>
    obtain ⟨l, hlhs, r, hrhs, m, hop, rfl⟩ := lowerIn_binaryOp_iff.1 h
    exact lowerIn_binaryOp_iff.2
      ⟨l, lowerIn_of_prefix lhs hl hlhs, r, lowerIn_of_prefix rhs hl hrhs, m, hop, rfl⟩
  | breakTo label =>
    obtain ⟨d, hd, rfl⟩ := lowerIn_breakTo_iff.1 h
    exact lowerIn_breakTo_iff.2 ⟨d, FrameStack.distance_of_prefix hl hd, rfl⟩
  | breakWith label value =>
    obtain ⟨v, hv, d, hd, rfl⟩ := lowerIn_breakWith_iff.1 h
    exact lowerIn_breakWith_iff.2
      ⟨v, lowerIn_of_prefix value hl hv, d, FrameStack.distance_of_prefix hl hd, rfl⟩
  | ifThen condition thenBody =>
    obtain ⟨c, hc, hcheck, t, ht, rfl⟩ := lowerIn_ifThen_iff.1 h
    have hl' := FrameStack.labels_enter_prefix .cond hl
    exact lowerIn_ifThen_iff.2
      ⟨c, lowerIn_of_prefix condition hl hc, hcheck, t, lowerIn_of_prefix thenBody hl' ht, rfl⟩
  | ifElse condition thenBody elseBody =>
    obtain ⟨c, hc, hcheck, t, ht, e, he, rfl⟩ := lowerIn_ifElse_iff.1 h
    have hl' := FrameStack.labels_enter_prefix .cond hl
    exact lowerIn_ifElse_iff.2
      ⟨c, lowerIn_of_prefix condition hl hc, hcheck, t, lowerIn_of_prefix thenBody hl' ht,
        e, lowerIn_of_prefix elseBody hl' he, rfl⟩
  | storeLocal | propertyAccess | propertyAssignment | containerAlloc | stackAlloc | stackFree =>
    cases h

theorem lowerAllIn_of_prefix (is : List Instruction) {inner whole : FrameStack} {ns : List Node}
    (hl : inner.labels <+: whole.labels) (h : lowerAllIn inner is = .ok ns) :
    lowerAllIn whole is = .ok ns := by
  cases is with
  | nil => exact h
  | cons i is =>
    obtain ⟨n, hn, ns', hns, rfl⟩ := lowerAllIn_cons_iff.1 h
    exact lowerAllIn_cons_iff.2
      ⟨n, lowerIn_of_prefix i hl hn, ns', lowerAllIn_of_prefix is hl hns, rfl⟩

end

/-- With no frames around it a tree needs none, so it is the same under any frames. -/
theorem lowerIn_of_lowerRoot {i : Instruction} {n : Node} (h : i.lowerRoot = .ok n)
    (frames : FrameStack) : i.lowerIn frames = .ok n := by
  have hl : ({} : FrameStack).labels <+: frames.labels := List.nil_prefix
  exact i.lowerIn_of_prefix hl h

end Instruction

end TreeWasm
