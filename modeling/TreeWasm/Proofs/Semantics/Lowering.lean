-- SUMMARY: An instruction and its node evaluate alike, up to the names of what they are left for.
import TreeWasm.Proofs.Semantics.Instruction
import TreeWasm.Proofs.Semantics.Node

/-!
# Evaluation through lowering

The node of an instruction leaves what the instruction leaves, and where the instruction is left for
a label the node is left for the frame that the label leads to (`Instruction.eval_lowerIn`). An if
counts as a frame, but no label leads to it.
-/

namespace TreeWasm

/-! ## Frames -/

namespace FrameStack

/-- The number of frames between here and where a label leads, if it leads anywhere. -/
def depthOf? (s : FrameStack) (label : String) : Option Nat := (s.distance label).toOption

theorem depthOf?_eq_some {s : FrameStack} {label : String} {d : Nat}
    (h : s.distance label = .ok d) : s.depthOf? label = some d := by
  rw [depthOf?, h]
  rfl

theorem depthOf?_enter_self (label : String) (frames : FrameStack) :
    (frames.enter (.block label)).depthOf? label = some 0 :=
  depthOf?_eq_some (distance_enter_self label frames)

theorem depthOf?_enter {kind : Frame.Kind} {label : String} (h : kind ≠ .block label)
    (frames : FrameStack) :
    (frames.enter kind).depthOf? label = (frames.depthOf? label).map (· + 1) := by
  cases hd : frames.distance label with
  | ok d =>
    rw [depthOf?_eq_some hd]
    exact depthOf?_eq_some ((distance_enter_iff h frames _).2 ⟨d, hd, rfl⟩)
  | error refusal =>
    cases hd' : (frames.enter kind).distance label with
    | ok d' =>
      obtain ⟨d, hok, -⟩ := (distance_enter_iff h frames d').1 hd'
      rw [hd] at hok
      cases hok
    | error refusal' =>
      rw [depthOf?, depthOf?, hd, hd']
      rfl

end FrameStack

/-! ## Outcomes -/

theorem ValueType.keep_eq_kept {type : ValueType} {m : MachineType} (h : type.machineType = .ok m)
    (v : Option Value) : type.keep v = Outcome.kept m.valType? v := by
  cases type <;> cases h <;> rfl

namespace Outcome

theorem kept_of_type {result : Option Wasm.ValType} {v : Option Value}
    (h : v.map Value.type = result) : kept result v = v := by
  cases v with
  | none => cases result <;> rfl
  | some a =>
    subst h
    rfl

/-- No label leads to an if, so an if is left wherever its body is. -/
theorem exit_retarget_cond (frames : FrameStack) (result : Option Wasm.ValType)
    (o : Outcome String) :
    (o.retarget (frames.enter .cond).depthOf?).exit result = o.retarget frames.depthOf? := by
  cases o with
  | leaves label v =>
    have hkind : Frame.Kind.cond ≠ .block label := nofun
    simp only [retarget, FrameStack.depthOf?_enter hkind]
    cases frames.depthOf? label <;> rfl
  | ends v | traps | fails => rfl

/-- The frame of a block is left where the block catches its label. -/
theorem exit_retarget_block {type : ValueType} {m : MachineType} (hm : type.machineType = .ok m)
    (frames : FrameStack) (label : String) {o : Outcome String}
    (h : ∀ v, o = ends v → v.map Value.type = m.valType?) :
    (o.retarget (frames.enter (.block label)).depthOf?).exit m.valType? =
      (o.catchLabel label type).retarget frames.depthOf? := by
  cases o with
  | ends v =>
    simp only [catchLabel, type.keep_eq_kept hm, kept_of_type (h v rfl)]
    rfl
  | leaves target v =>
    by_cases ht : target = label
    · subst ht
      simp only [retarget, catchLabel, FrameStack.depthOf?_enter_self, type.keep_eq_kept hm,
        ite_true]
      rfl
    · have hkind : Frame.Kind.block label ≠ .block target := fun h => ht (by cases h; rfl)
      simp only [retarget, catchLabel, FrameStack.depthOf?_enter hkind, ht, ite_false]
      cases frames.depthOf? target <;> rfl
  | traps | fails => rfl

end Outcome

/-- Dropping forgets a value, and where nothing is dropped there was none. -/
theorem Lowering.eval_discard {A : Arithmetic} {vs : List Value} {slots : List Wasm.ValType}
    (hvs : vs.map Value.type = slots) {results : Results} {n : Node} {e : Effect}
    (h : n.HasEffect slots results e) :
    (Lowering.discard n).eval A vs = (n.eval A vs).forget := by
  have ht := h.valType?_type
  have hs := n.eval_sound (A := A) hvs h
  unfold Lowering.discard
  cases hv : n.type.valType? with
  | some t => rfl
  | none =>
    rw [hv] at ht
    cases ho : n.eval A vs with
    | ends v =>
      rw [ho] at hs
      obtain rfl : e = .ofResult (v.map Value.type) := hs
      rw [Effect.valType?_ofResult, eq_comm, Option.map_eq_none_iff] at ht
      rw [ht]
      rfl
    | leaves d v | traps | fails => rfl

/-! ## Instructions -/

theorem MachineOp.arith_of_machineOp {op : Arith} {type : ValueType} {m : MachineOp}
    (h : op.machineOp type = .ok m) : m.arith = op := by
  revert h
  cases op <;> cases type <;> intro h <;> cases h <;> rfl

namespace Instruction

variable {slots : List ValueType} {slots' : List Wasm.ValType} {A : Arithmetic} {vs : List Value}

/-- The value of a break decides what it evaluates to. -/
theorem eval_breakWith {frames : FrameStack} {label : String} {d : Nat} {value : Instruction}
    {v : Node} (hd : frames.depthOf? label = some d)
    (hv : v.eval A vs = (value.eval A vs).retarget frames.depthOf?) :
    (Node.breakWith label d v).eval A vs =
      ((breakWith label value).eval A vs).retarget frames.depthOf? := by
  rw [Node.eval, hv, eval, Outcome.retarget_andThen]
  simp only [Outcome.retarget_leaves hd]

/-- The parts of an if decide what it evaluates to. -/
theorem eval_ifElse {frames : FrameStack} {condition thenBody elseBody : Instruction} {c t e : Node}
    {type : MachineType}
    (hc : c.eval A vs = (condition.eval A vs).retarget frames.depthOf?)
    (ht : t.eval A vs = (thenBody.eval A vs).retarget (frames.enter .cond).depthOf?)
    (he : e.eval A vs = (elseBody.eval A vs).retarget (frames.enter .cond).depthOf?) :
    (Node.ifElse type c t e).eval A vs =
      ((ifElse condition thenBody elseBody).eval A vs).retarget frames.depthOf? := by
  rw [Node.eval, hc, ht, he, Outcome.exit_retarget_cond, Outcome.exit_retarget_cond, eval,
    Outcome.retarget_andThen]
  simp only [Outcome.retarget_choose]

/-- The children of a block decide what it evaluates to. -/
theorem eval_block (hvs : vs.map Value.type = slots') {frames : FrameStack} {label : String}
    {type : ValueType} {m : MachineType} (hm : type.machineType = .ok m) {results : Results}
    {children : List Instruction} {ns : List Node}
    (hns : Node.EndsWith slots' results ns m.valType?)
    (h : Node.evalAll A vs ns =
      (evalAll A vs children).retarget (frames.enter (.block label)).depthOf?) :
    (Node.block label m ns).eval A vs =
      ((block label type children).eval A vs).retarget frames.depthOf? := by
  obtain ⟨e, hf, hs⟩ := Node.evalAll_sound (A := A) hvs ns hns
  have hends : ∀ v, evalAll A vs children = .ends v → v.map Value.type = m.valType? := by
    intro v hv
    rw [h, hv] at hs
    exact hs.type_of_ends hf
  rw [Node.eval, h, Outcome.exit_retarget_block hm frames label hends, eval]

mutual

/-- The node of an instruction evaluates as the instruction does. -/
theorem eval_lowerIn (hslots : slots.map ValueType.valType? = slots'.map some)
    (hvs : vs.map Value.type = slots') (i : Instruction) {frames : FrameStack} {labels : Labels}
    {results : Results} {e : Effect} {n : Node} (ha : Aligned frames labels results)
    (h : HasEffect slots labels i e) (hn : i.lowerIn frames = .ok n) :
    n.eval A vs = (i.eval A vs).retarget frames.depthOf? := by
  cases h with
  | constInt32 | constBool | constFloat64 =>
    cases hn
    rfl
  | localGet hi hs ht =>
    obtain ⟨m, -, rfl⟩ := lowerIn_localGet_iff.1 hn
    exact (Outcome.retarget_ofSlot _ vs _).symm
  | @binaryOp _ op type m t lhs rhs _ _ hop ht hl hlf hr hrf =>
    obtain ⟨l, hl', r, hr', m', hop', rfl⟩ := lowerIn_binaryOp_iff.1 hn
    obtain rfl : m = m' := by
      rw [hop] at hop'
      cases hop'
      rfl
    have hop := MachineOp.arith_of_machineOp hop
    have hval := Arith.valType_of_machineOp hop' ht
    show ((l.eval A vs).andThen fun a => (r.eval A vs).andThen fun b =>
      .ofOperator A m.arith m.valType a b) = _
    rw [eval_lowerIn hslots hvs lhs ha hl hl', eval_lowerIn hslots hvs rhs ha hr hr', hop, hval]
    simp only [eval, ht, Outcome.retarget_andThen, Outcome.retarget_ofOperator]
  | @breakNever _ label hl =>
    obtain ⟨d, hd, rfl⟩ := lowerIn_breakTo_iff.1 hn
    exact (Outcome.retarget_leaves (FrameStack.depthOf?_eq_some hd) none).symm
  | @breakNeverWith _ label value _ hl hv =>
    obtain ⟨v, hv', d, hd, rfl⟩ := lowerIn_breakWith_iff.1 hn
    exact eval_breakWith (FrameStack.depthOf?_eq_some hd)
      (eval_lowerIn hslots hvs value ha hv hv')
  | @breakWith _ label type t value _ hl ht hv hvf =>
    obtain ⟨v, hv', d, hd, rfl⟩ := lowerIn_breakWith_iff.1 hn
    exact eval_breakWith (FrameStack.depthOf?_eq_some hd)
      (eval_lowerIn hslots hvs value ha hv hv')
  | @ifThen _ condition thenBody _ _ hc hcf ht =>
    obtain ⟨c, hc', -, t, ht', rfl⟩ := lowerIn_ifThen_iff.1 hn
    have htt := hasEffect_of_lowerIn hslots (ha.cond none) ht ht'
    have hthen := eval_lowerIn hslots hvs thenBody (ha.cond none) ht ht'
    show (c.eval A vs).andThen
      (.choose (((Lowering.discard t).eval A vs).exit none) (.ends none)) = _
    rw [Lowering.eval_discard hvs htt, hthen, ← Outcome.retarget_forget,
      Outcome.exit_retarget_cond, eval_lowerIn hslots hvs condition ha hc hc', eval,
      Outcome.retarget_andThen]
    simp only [Outcome.retarget_choose]
    rfl
  | @ifElseValue _ condition thenBody elseBody _ _ _ t hc hcf hl hlf hr hrf hv =>
    obtain ⟨c, hc', -, l, hl', r, hr', rfl⟩ := lowerIn_ifElse_iff.1 hn
    exact eval_ifElse (eval_lowerIn hslots hvs condition ha hc hc')
      (eval_lowerIn hslots hvs thenBody (ha.cond none) hl hl')
      (eval_lowerIn hslots hvs elseBody (ha.cond none) hr hr')
  | @ifElseVoid _ condition thenBody elseBody _ _ _ hc hcf hl hlf hr hrf =>
    obtain ⟨c, hc', -, l, hl', r, hr', rfl⟩ := lowerIn_ifElse_iff.1 hn
    exact eval_ifElse (eval_lowerIn hslots hvs condition ha hc hc')
      (eval_lowerIn hslots hvs thenBody (ha.cond none) hl hl')
      (eval_lowerIn hslots hvs elseBody (ha.cond none) hr hr')
  | @blockNever _ label children hc =>
    obtain ⟨m, hm, ns, hns, rfl⟩ := lowerIn_block_iff.1 hn
    have ha' := ha.block label hm
    cases hm
    exact eval_block hvs rfl (endsWith_of_lowerAllIn hslots ha' hc hns)
      (evalAll_lowerAllIn hslots hvs children ha' hc hns)
  | @blockValue _ label type t children hv hc =>
    obtain ⟨m, hm, ns, hns, rfl⟩ := lowerIn_block_iff.1 hn
    have ha' := ha.block label hm
    rw [← hv, ValueType.valType?_of_machineType hm] at hc
    exact eval_block hvs hm (endsWith_of_lowerAllIn hslots ha' hc hns)
      (evalAll_lowerAllIn hslots hvs children ha' hc hns)

/-- So do the nodes of a sequence. -/
theorem evalAll_lowerAllIn (hslots : slots.map ValueType.valType? = slots'.map some)
    (hvs : vs.map Value.type = slots') (is : List Instruction) {frames : FrameStack}
    {labels : Labels} {results : Results} {result : Option Wasm.ValType} {ns : List Node}
    (ha : Aligned frames labels results) (h : EndsWith slots labels is result)
    (hn : lowerAllIn frames is = .ok ns) :
    Node.evalAll A vs ns = (evalAll A vs is).retarget frames.depthOf? := by
  cases h with
  | nil =>
    cases hn
    rfl
  | @last _ i _ _ hi hf =>
    obtain ⟨n, hn', _, hnil, rfl⟩ := lowerAllIn_cons_iff.1 hn
    cases hnil
    exact eval_lowerIn hslots hvs i ha hi hn'
  | @cons _ i _ is _ hi hf his =>
    obtain ⟨n, hn', ns, hns, rfl⟩ := lowerAllIn_cons_iff.1 hn
    have hfirst := eval_lowerIn hslots hvs i ha hi hn'
    cases is with
    | nil =>
      cases hns
      exact hfirst
    | cons next is =>
      have hrest := evalAll_lowerAllIn hslots hvs (next :: is) ha his hns
      obtain ⟨n', -, ns', -, rfl⟩ := lowerAllIn_cons_iff.1 hns
      show (n.eval A vs).andThen (fun _ => Node.evalAll A vs (n' :: ns')) = _
      rw [hfirst, hrest, evalAll, Outcome.retarget_andThen]

end

end Instruction

end TreeWasm
