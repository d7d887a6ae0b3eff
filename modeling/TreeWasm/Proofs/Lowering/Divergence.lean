-- SUMMARY: Which ifs go by a type that does not say whether code completes, and when that is in order.
import TreeWasm.Proofs.Lowering.Outcome
import TreeWasm.Proofs.Validation.Reachability

/-!
# Divergence

A node of type `unreachable` leaves no value. Some of these nodes never complete, others complete
and leave nothing, and the type does not tell which. An if goes by the type nevertheless: it lets a
condition without a value pass, and it takes its own type from one body where the other has none
(`Node.ReliesOn`). That is in order where the code of the part is cut off. It is, unless the part is
a slot or a block without a value, or an if whose condition completes (`Node.FallsThrough`).
-/

namespace TreeWasm

open Wasm Wasm.Validation

namespace Node

/-! ## Ifs -/

mutual

/-- A node and all that it consists of. -/
def subnodes : Node → List Node
  | .constI32 value => [.constI32 value]
  | .constF64 value => [.constF64 value]
  | .localGet index type => [.localGet index type]
  | .block label type children => .block label type children :: subnodesAll children
  | .binary op lhs rhs => .binary op lhs rhs :: (subnodes lhs ++ subnodes rhs)
  | .breakTo label depth => [.breakTo label depth]
  | .breakWith label depth value => .breakWith label depth value :: subnodes value
  | .ifThen type condition thenBody =>
    .ifThen type condition thenBody :: (subnodes condition ++ subnodes thenBody)
  | .ifElse type condition thenBody elseBody =>
    .ifElse type condition thenBody elseBody ::
      (subnodes condition ++ (subnodes thenBody ++ subnodes elseBody))
  | .drop value => .drop value :: subnodes value

def subnodesAll : List Node → List Node
  | [] => []
  | n :: ns => subnodes n ++ subnodesAll ns

end

/-- An if goes by a part not to complete: by a condition that is of type `unreachable`, and by a
body that is of this type if the if itself has a value. -/
inductive ReliesOn : Node → Node → Prop where
  | ifThen {type : MachineType} {condition thenBody : Node} (h : condition.type = .unreachable) :
      ReliesOn (.ifThen type condition thenBody) condition
  | condition {type : MachineType} {condition thenBody elseBody : Node}
      (h : condition.type = .unreachable) :
      ReliesOn (.ifElse type condition thenBody elseBody) condition
  | thenBody {type : MachineType} {condition thenBody elseBody : Node} (htype : type ≠ .unreachable)
      (h : thenBody.type = .unreachable) :
      ReliesOn (.ifElse type condition thenBody elseBody) thenBody
  | elseBody {type : MachineType} {condition thenBody elseBody : Node} (htype : type ≠ .unreachable)
      (h : elseBody.type = .unreachable) :
      ReliesOn (.ifElse type condition thenBody elseBody) elseBody

/-- The node is of type `unreachable`, yet what comes behind it is reached: a slot or a block
without a value, or an if whose condition completes. -/
inductive FallsThrough : Node → Prop where
  | localGet (index : UInt32) : FallsThrough (.localGet index .unreachable)
  | block (label : String) (children : List Node) :
      FallsThrough (.block label .unreachable children)
  | ifThen {condition : Node} (thenBody : Node) (h : condition.diverges = false) :
      FallsThrough (.ifThen .unreachable condition thenBody)
  | ifElse {condition : Node} (thenBody elseBody : Node) (h : condition.diverges = false) :
      FallsThrough (.ifElse .unreachable condition thenBody elseBody)

theorem ReliesOn.type_eq {n p : Node} (h : n.ReliesOn p) : p.type = .unreachable := by
  cases h <;> assumption

theorem FallsThrough.diverges_eq {n : Node} (h : n.FallsThrough) : n.diverges = false := by
  cases h with
  | localGet | block => rfl
  | ifThen _ h => exact h
  | ifElse _ _ h => exact h

theorem mem_subnodes_discard {m n : Node} (h : m ∈ (Lowering.discard n).subnodes) :
    m = .drop n ∨ m ∈ n.subnodes := by
  unfold Lowering.discard at h
  split at h
  · exact List.mem_cons.1 h
  · exact .inr h

end Node

theorem MachineOp.type_ne_unreachable (op : MachineOp) : op.type ≠ .unreachable := by
  intro h
  have hval := op.valType?_type
  rw [h] at hval
  cases hval

namespace Instruction

/-- Where instructions become nodes without a value, those that do not diverge fall through. -/
theorem fallsThrough_of_lowerIn (i : Instruction) {frames : FrameStack} {n : Node}
    (h : i.lowerIn frames = .ok n) (ht : n.type = .unreachable) (hd : n.diverges = false) :
    n.FallsThrough := by
  cases i with
  | constInt32 | constFloat64 | constBool =>
    cases h
    cases ht
  | localGet index =>
    obtain ⟨m, -, rfl⟩ := lowerIn_localGet_iff.1 h
    obtain rfl : m = .unreachable := ht
    exact .localGet index
  | block label =>
    obtain ⟨m, -, ns, -, rfl⟩ := lowerIn_block_iff.1 h
    obtain rfl : m = .unreachable := ht
    exact .block label ns
  | binaryOp =>
    obtain ⟨_, -, _, -, op, -, rfl⟩ := lowerIn_binaryOp_iff.1 h
    exact absurd ht op.type_ne_unreachable
  | breakTo =>
    obtain ⟨_, -, rfl⟩ := lowerIn_breakTo_iff.1 h
    cases hd
  | breakWith =>
    obtain ⟨_, -, _, -, rfl⟩ := lowerIn_breakWith_iff.1 h
    cases hd
  | ifThen =>
    obtain ⟨_, -, -, t, -, rfl⟩ := lowerIn_ifThen_iff.1 h
    exact .ifThen _ hd
  | ifElse =>
    obtain ⟨_, -, -, t, -, e, -, rfl⟩ := lowerIn_ifElse_iff.1 h
    have htype : Lowering.joinType t.type e.type = .unreachable := ht
    rw [htype]
    exact .ifElse t e hd
  | storeLocal | propertyAccess | propertyAssignment | containerAlloc | stackAlloc | stackFree =>
    cases h

mutual

/-- What an if goes by is the node of an instruction. -/
theorem exists_lowerIn_of_reliesOn (i : Instruction) {frames : FrameStack} {n m p : Node}
    (h : i.lowerIn frames = .ok n) (hm : m ∈ n.subnodes) (hp : m.ReliesOn p) :
    ∃ (k : Instruction) (inner : FrameStack), k.lowerIn inner = .ok p := by
  cases i with
  | constInt32 | constFloat64 | constBool =>
    cases h
    obtain rfl := List.mem_singleton.1 hm
    cases hp
  | localGet =>
    obtain ⟨_, -, rfl⟩ := lowerIn_localGet_iff.1 h
    obtain rfl := List.mem_singleton.1 hm
    cases hp
  | block label type children =>
    obtain ⟨_, -, ns, hns, rfl⟩ := lowerIn_block_iff.1 h
    rcases List.mem_cons.1 hm with rfl | hm
    · cases hp
    · exact exists_lowerIn_of_reliesOnAll children hns hm hp
  | binaryOp op type lhs rhs =>
    obtain ⟨l, hl, r, hr, _, -, rfl⟩ := lowerIn_binaryOp_iff.1 h
    rcases List.mem_cons.1 hm with rfl | hm
    · cases hp
    · rcases List.mem_append.1 hm with hm | hm
      · exact exists_lowerIn_of_reliesOn lhs hl hm hp
      · exact exists_lowerIn_of_reliesOn rhs hr hm hp
  | breakTo =>
    obtain ⟨_, -, rfl⟩ := lowerIn_breakTo_iff.1 h
    obtain rfl := List.mem_singleton.1 hm
    cases hp
  | breakWith label value =>
    obtain ⟨v, hv, _, -, rfl⟩ := lowerIn_breakWith_iff.1 h
    rcases List.mem_cons.1 hm with rfl | hm
    · cases hp
    · exact exists_lowerIn_of_reliesOn value hv hm hp
  | ifThen condition thenBody =>
    obtain ⟨c, hc, -, t, ht, rfl⟩ := lowerIn_ifThen_iff.1 h
    rcases List.mem_cons.1 hm with rfl | hm
    · cases hp
      exact ⟨condition, frames, hc⟩
    · rcases List.mem_append.1 hm with hm | hm
      · exact exists_lowerIn_of_reliesOn condition hc hm hp
      · rcases Node.mem_subnodes_discard hm with rfl | hm
        · cases hp
        · exact exists_lowerIn_of_reliesOn thenBody ht hm hp
  | ifElse condition thenBody elseBody =>
    obtain ⟨c, hc, -, t, ht, e, he, rfl⟩ := lowerIn_ifElse_iff.1 h
    rcases List.mem_cons.1 hm with rfl | hm
    · cases hp with
      | condition => exact ⟨condition, frames, hc⟩
      | thenBody => exact ⟨thenBody, _, ht⟩
      | elseBody => exact ⟨elseBody, _, he⟩
    · rcases List.mem_append.1 hm with hm | hm
      · exact exists_lowerIn_of_reliesOn condition hc hm hp
      · rcases List.mem_append.1 hm with hm | hm
        · exact exists_lowerIn_of_reliesOn thenBody ht hm hp
        · exact exists_lowerIn_of_reliesOn elseBody he hm hp
  | storeLocal | propertyAccess | propertyAssignment | containerAlloc | stackAlloc | stackFree =>
    cases h

theorem exists_lowerIn_of_reliesOnAll (is : List Instruction) {frames : FrameStack}
    {ns : List Node} {m p : Node} (h : lowerAllIn frames is = .ok ns)
    (hm : m ∈ Node.subnodesAll ns) (hp : m.ReliesOn p) :
    ∃ (k : Instruction) (inner : FrameStack), k.lowerIn inner = .ok p := by
  cases is with
  | nil =>
    cases h
    cases hm
  | cons i is =>
    obtain ⟨n, hn, ns', hns, rfl⟩ := lowerAllIn_cons_iff.1 h
    rcases List.mem_append.1 hm with hm | hm
    · exact exists_lowerIn_of_reliesOn i hn hm hp
    · exact exists_lowerIn_of_reliesOnAll is hns hm hp

end

/-- What an if in an accepted tree goes by not to complete does not complete if it is none of the
nodes that fall through: wherever its code passes the checker, the frame is unreachable behind it.
Behind a node that falls through the frame is as reachable as it was. -/
theorem unreachable_iff_of_reliesOn {i : Instruction} {n m p : Node} (h : i.lowerRoot = .ok n)
    (hm : m ∈ n.subnodes) (hp : m.ReliesOn p) {s : Scope} {c : Control} {cs cs' : Controls}
    (hc : c.unreachable = false) (hrun : stepsBasic s (c :: cs) p.operators = .ok cs') :
    ∃ c', cs' = c' :: cs ∧ (c'.unreachable = true ↔ ¬ p.FallsThrough) := by
  have hpass := p.cuts_operators s hrun
  obtain ⟨c', rfl⟩ := hpass.exists_eq
  obtain ⟨k, inner, hk⟩ := exists_lowerIn_of_reliesOn i h hm hp
  have hfalls : p.FallsThrough ↔ p.diverges = false :=
    ⟨Node.FallsThrough.diverges_eq, k.fallsThrough_of_lowerIn hk hp.type_eq⟩
  refine ⟨c', rfl, ?_⟩
  rw [hpass.unreachable_eq, hc, Bool.false_or, hfalls, Bool.not_eq_false]

/-- The first body of the if leaves the block. -/
def leftEarly : Instruction :=
  .block "out" .int32
    [.ifElse (.localGet 0 .bool) (.breakWith "out" (.constInt32 1)) (.constInt32 2)]

theorem leftEarly_unreachable :
    ∃ n m p c', leftEarly.lowerRoot = .ok n ∧ m ∈ n.subnodes ∧ m.ReliesOn p ∧
      stepsBasic {} [.entered .cond (some .i32), .entered .block (some .i32)] p.operators =
        .ok [c', .entered .block (some .i32)] ∧ c'.unreachable = true := by
  obtain ⟨n, hn, hm⟩ : ∃ n, leftEarly.lowerRoot = .ok n ∧
      .ifElse .word32 (.localGet 0 .word32) (.breakWith "out" 1 (.constI32 1)) (.constI32 2) ∈
        n.subnodes := ⟨_, rfl, .tail _ (.head _)⟩
  have hp : Node.ReliesOn
      (.ifElse .word32 (.localGet 0 .word32) (.breakWith "out" 1 (.constI32 1)) (.constI32 2))
      (.breakWith "out" 1 (.constI32 1)) := .thenBody nofun rfl
  have hrun : stepsBasic {} [.entered .cond (some .i32), .entered .block (some .i32)]
      (Node.breakWith "out" 1 (.constI32 1)).operators =
        .ok [(Control.entered .cond (some .i32)).dead, .entered .block (some .i32)] := rfl
  obtain ⟨c', heq, hiff⟩ := unreachable_iff_of_reliesOn hn hm hp rfl hrun
  obtain ⟨rfl, -⟩ := List.cons.inj heq
  exact ⟨n, _, _, _, hn, hm, hp, hrun, hiff.2 nofun⟩

/-- An if whose condition and whose first body are ifs without an alternative. -/
def valueless : Instruction :=
  .ifElse (.ifThen (.constBool true) (.constInt32 1)) (.ifThen (.constBool true) (.constInt32 1))
    (.constInt32 2)

/-- The tree is accepted, and the if in it goes by both not to complete. But both complete and leave
nothing, so that the code of a function with this body is not valid. -/
theorem valueless_completes :
    ∃ n p, valueless.lowerRoot = .ok n ∧ n = .ifElse .word32 p p (.constI32 2) ∧
      p.type = .unreachable ∧
      (∀ c ∈ initial [.i32], c.unreachable = false) ∧
      stepsBasic {} (initial [.i32]) p.operators = .ok (initial [.i32]) ∧
      checkBody {} [.i32] ((n.operators ++ [Operator.finish]).map .basic) =
        .error (.nothingOnStack (some .i32)) :=
  ⟨_, _, rfl, rfl, rfl, by decide, rfl, rfl⟩

end Instruction

end TreeWasm
