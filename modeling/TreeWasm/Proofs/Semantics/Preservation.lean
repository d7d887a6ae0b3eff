-- SUMMARY: A well-typed function and its code come to the same end.
import TreeWasm.Proofs.Assembly.Soundness
import TreeWasm.Proofs.Semantics.Code
import TreeWasm.Proofs.Semantics.Lowering

/-!
# Preservation of meaning

Evaluating the body of a well-typed function and running the code that the function is assembled to
come to the same: either both end with the same value, or without one, or both trap
(`Function.WellTyped.run_eq_eval`). Neither fails or gets stuck, and nothing is left for a label
that is not there. What arithmetic does is arbitrary, and so are the values in the slots.
-/

namespace TreeWasm

open Wasm Wasm.Execution

/-- Where the code of a function starts to run. -/
def Assembled.start (f : Assembled) : State where
  operands := []
  labels := [⟨f.type.results.length, []⟩]
  code := f.operators

variable {A : Arithmetic} {vs : List Value}

/-- Outside all blocks there is nothing to leave for, so an evaluation ends or traps. -/
theorem Outcome.Sound.ends_or_traps {e : Effect} {o : Outcome String}
    (h : (o.retarget (FrameStack.depthOf? {})).Sound [] e) :
    (∃ v, o = .ends v) ∨ o = .traps := by
  cases o with
  | ends v => exact .inl ⟨v, rfl⟩
  | traps => exact .inr rfl
  | leaves label v => cases h
  | fails => cases h

/-- The code of a body returns what the body leaves. -/
theorem Assembled.run_start {f : Assembled} {result : Option ValType} {e : Effect}
    (hvs : vs.map Value.type = f.slots) (hr : f.type.results = result.toList)
    (h : f.body.HasEffect f.slots [] e) :
    run A vs f.start =
      resume A vs [] [⟨result.toList.length, []⟩] [.finish] (f.body.eval A vs) := by
  unfold start operators
  rw [hr]
  exact f.body.run_operators hvs h [] nofun [.finish]

/-- With the same values in the slots, a well-typed function ends with a value exactly if its code
returns that value, and traps exactly if its code does. It always does one of the two. -/
theorem Function.WellTyped.run_eq_eval {f : Function} (h : f.WellTyped) :
    ∃ parts : Assembled, f.assembled = .ok parts ∧
      ∀ (A : Arithmetic) (vs : List Value),
        f.slots.map ValueType.valType? = vs.map (some ·.type) →
        (∃ v, f.body.eval A vs = .ends v ∧ v.map Value.type = f.returnType.valType? ∧
          run A vs parts.start = .returned v.toList) ∨
        (f.body.eval A vs = .traps ∧ run A vs parts.start = .trapped) := by
  obtain ⟨e, parts, ha⟩ := h.exists_assembledTo
  refine ⟨parts, ha.assembled, fun A vs hvs => ?_⟩
  have hslots : vs.map Value.type = parts.slots := by
    have hsome : (vs.map Value.type).map some = parts.slots.map some := by
      rw [List.map_map, ← ha.slots, hvs]
      rfl
    exact (List.map_inj_right fun _ _ => Option.some.inj).1 hsome
  have heval := f.body.eval_lowerIn (A := A) ha.slots hslots .nil ha.effect ha.lowered
  have hsound := parts.body.eval_sound (A := A) hslots ha.body
  have hrun := Assembled.run_start (A := A) hslots ha.results.symm ha.body
  rw [heval] at hsound hrun
  rw [hrun]
  rcases hsound.ends_or_traps with ⟨v, hv⟩ | ht
  · rw [hv] at hsound ⊢
    refine .inl ⟨v, rfl, hsound.type_of_ends ha.fits, ?_⟩
    refine (run_of_next rfl).trans ((run_of_halt rfl).trans ?_)
    simp only [List.append_nil]
  · rw [ht]
    exact .inr ⟨rfl, rfl⟩

/-- The function leaves its block in the one run from the if, in the other from the operand. -/
theorem leaving_run_eq_eval :
    leaving.WellTyped ∧ ∃ parts : Assembled, leaving.assembled = .ok parts ∧
      run .int32 [.i32 5, .f64 ⟨0⟩] parts.start = .returned [.i32 1] ∧
      run .int32 [.i32 0, .f64 ⟨0⟩] parts.start = .returned [.i32 2] := by
  obtain ⟨parts, hparts, hrun⟩ := Function.WellTyped.run_eq_eval leaving_wellTyped
  refine ⟨leaving_wellTyped, parts, hparts, ?_, ?_⟩
  · rcases hrun .int32 [.i32 5, .f64 ⟨0⟩] rfl with ⟨v, hv, -, hr⟩ | ⟨ht, -⟩
    · have h : leaving.body.eval .int32 [.i32 5, .f64 ⟨0⟩] = .ends (some (.i32 1)) := rfl
      rw [h] at hv
      cases hv
      exact hr
    · cases ht
  · rcases hrun .int32 [.i32 0, .f64 ⟨0⟩] rfl with ⟨v, hv, -, hr⟩ | ⟨ht, -⟩
    · have h : leaving.body.eval .int32 [.i32 0, .f64 ⟨0⟩] = .ends (some (.i32 2)) := rfl
      rw [h] at hv
      cases hv
      exact hr
    · cases ht

end TreeWasm
