-- SUMMARY: The code of a function is read back up to the operator that closes its body.
import TreeWasm.Proofs.Binary.Module
import TreeWasm.Proofs.Binary.Operator
import TreeWasm.Proofs.Machine.Code

/-!
# Code in binaries

The code that this library writes is well nested, so the reader that looks for the end of a body
finds it at the last operator and nowhere before (`Node.nests_operators`).
-/

namespace TreeWasm.Wasm

open Validation

/-! ## Nesting -/

/-- Operators that turn some open frames into others. A frame is open in front of each of them. -/
inductive Nests : List Bool → List Operator → List Bool → Prop where
  | nil {frames} : Nests frames [] frames
  | cons {frame frames op ops frames'} :
      checkNesting frame (.basic op) = .ok () →
      Nests (nest (frame :: frames) (.basic op)) ops frames' →
      Nests (frame :: frames) (op :: ops) frames'

namespace Nests

theorem append {frames frames' frames'' : List Bool} {xs ys : List Operator}
    (h : Nests frames xs frames') (h' : Nests frames' ys frames'') :
    Nests frames (xs ++ ys) frames'' := by
  induction h with
  | nil => exact h'
  | cons hop _ ih => exact .cons hop (ih h')

theorem singleton {frame : Bool} {frames : List Bool} {op : Operator}
    (h : checkNesting frame (.basic op) = .ok ()) :
    Nests (frame :: frames) [op] (nest (frame :: frames) (.basic op)) := .cons h .nil

end Nests

end Wasm

namespace Node

open Wasm

mutual

/-- A node closes the frames that it opens, and no others. -/
theorem nests_operators (frame : Bool) (frames : List Bool) :
    ∀ n : Node, Nests (frame :: frames) n.operators (frame :: frames)
  | .constI32 _ | .constF64 _ | .localGet .. | .breakTo .. => .singleton rfl
  | .block _ _ children => by
    rw [operators_block]
    exact .cons rfl ((nests_operatorsAll false (frame :: frames) children).append (.singleton rfl))
  | .binary _ lhs rhs => by
    rw [operators_binary]
    exact (nests_operators frame frames lhs).append
      ((nests_operators frame frames rhs).append (.singleton rfl))
  | .breakWith _ _ value => by
    rw [operators_breakWith]
    exact (nests_operators frame frames value).append (.singleton rfl)
  | .ifThen _ condition thenBody => by
    rw [operators_ifThen]
    exact (nests_operators frame frames condition).append (.cons rfl
      ((nests_operators true (frame :: frames) thenBody).append (.singleton rfl)))
  | .ifElse _ condition thenBody elseBody => by
    rw [operators_ifElse]
    exact (nests_operators frame frames condition).append (.cons rfl
      ((nests_operators true (frame :: frames) thenBody).append (.cons rfl
        ((nests_operators false (frame :: frames) elseBody).append (.singleton rfl)))))
  | .drop value => by
    rw [operators_drop]
    exact (nests_operators frame frames value).append (.singleton rfl)

theorem nests_operatorsAll (frame : Bool) (frames : List Bool) :
    ∀ ns : List Node, Nests (frame :: frames) (operatorsAll ns) (frame :: frames)
  | [] => .nil
  | n :: ns => by
    rw [operatorsAll_cons]
    exact (nests_operators frame frames n).append (nests_operatorsAll frame frames ns)

end

end Node

namespace Wasm

/-! ## Lengths -/

theorem Operator.encode_ne_nil (op : Operator) : op.encode ≠ [] := by
  cases op <;> exact nofun

/-- There are no more entries than bytes if no entry is empty. -/
theorem length_le_length_flatten {entries : List (List UInt8)} (h : ∀ e ∈ entries, e ≠ []) :
    entries.length ≤ entries.flatten.length := by
  induction entries with
  | nil => exact Nat.le_refl 0
  | cons e es ih =>
    have hfirst := List.length_pos_iff.2 (h e List.mem_cons_self)
    have hrest := ih fun e he => h e (List.mem_cons_of_mem _ he)
    rw [List.length_cons, List.flatten_cons, List.length_append]
    omega

theorem length_le_length_flatMap_encode (ops : List Operator) :
    ops.length ≤ (ops.flatMap Operator.encode).length := by
  have h : ∀ e ∈ ops.map Operator.encode, e ≠ [] := by
    intro e he
    obtain ⟨op, -, rfl⟩ := List.mem_map.1 he
    exact op.encode_ne_nil
  have hle := length_le_length_flatten h
  rwa [List.length_map, ← List.flatMap_def] at hle

/-! ## Bodies -/

namespace Reads

theorem expression {frames : List Bool} {ops : List Operator} (h : Nests frames ops [])
    (hfits : ∀ op ∈ ops, op.Fits) {fuel : Nat} (hfuel : ops.length ≤ fuel) :
    Reads (Reader.expression fuel frames) (ops.flatMap Operator.encode) (ops.map .basic) := by
  induction ops generalizing frames fuel with
  | nil =>
    cases h
    cases fuel <;> exact .pure []
  | cons op ops ih =>
    cases h with
    | cons hop hops =>
      obtain _ | fuel := fuel
      · cases hfuel
      · refine offset_bind fun start => (operator (hfits op List.mem_cons_self)).bind ?_
        rw [hop]
        refine (ih hops (fun op ho => hfits op (List.mem_cons_of_mem _ ho)) ?_).map (.pure _)
        exact Nat.le_of_succ_le_succ hfuel

theorem localRun {run : LocalRun} (h : run.count < UInt32.size) :
    Reads Reader.localRun run.encode (List.replicate run.count run.type) :=
  (u32 h).bind ((valueType run.type).map (.pure _))

end Reads

/-- The operators of code, up to its last one. -/
def Code.operators (c : Code) : List Operator := c.body ++ [.finish]

/-- The bytes of code are those of its runs and of its operators. -/
theorem Code.encode_eq (c : Code) : c.encode =
    encodeVec (c.locals.map LocalRun.encode) ++ c.operators.flatMap Operator.encode := by
  simp [encode, operators]

/-- What the bytes of code say. -/
def Code.toBody (c : Code) : Body :=
  ⟨LocalRun.expand c.locals, c.operators.map .basic⟩

/-- The numbers in code are integers of 32 bits. -/
structure Code.Fits (c : Code) : Prop where
  runs : c.locals.length < UInt32.size
  counts : ∀ run ∈ c.locals, run.count < UInt32.size
  operators : ∀ op ∈ c.body, op.Fits

theorem Reads.body {c : Code} (h : c.Fits) (hn : Nests [false] c.operators []) :
    Reads Reader.body c.encode c.toBody := by
  have hops : ∀ op ∈ c.operators, op.Fits := by
    intro op ho
    rcases List.mem_append.1 ho with ho | ho
    · exact h.operators op ho
    · obtain rfl := List.mem_singleton.1 ho
      trivial
  rw [c.encode_eq]
  refine (Reads.vec (fun run hr => localRun (h.counts run hr)) h.runs).bind ?_
  apply get_bind
  intro cursor hc
  refine (expression hn hops (Nat.le_trans (length_le_length_flatMap_encode _) hc)).map ?_
  rw [← List.flatMap_def]
  exact .pure _

end Wasm

end TreeWasm
