-- SUMMARY: Effects of machine nodes, and that lowering takes an instruction to a node of its effect.
import TreeWasm.Proofs.Lowering.Outcome
import TreeWasm.Proofs.Typing.Effect

/-!
# Effects of machine nodes

On the machine a branch names a frame by its depth. So the judgement for nodes is relative to the
results of the frames around a node, one for each block and one for each pair of bodies of an if,
innermost first. `Instruction.lowerIn_hasEffect` is the statement about lowering: an instruction
that has an effect is accepted, and its node has the same effect.
-/

namespace TreeWasm

/-! ## Nodes -/

/-- The results of the frames around a node, innermost first. -/
abbrev Results : Type := List (Option Wasm.ValType)

mutual

/-- In a function with the given slots and inside the given frames, a node has an effect. -/
inductive Node.HasEffect (slots : List Wasm.ValType) : Results → Node → Effect → Prop where
  | constI32 {results value} : Node.HasEffect slots results (.constI32 value) (.value .i32)
  | constF64 {results value} : Node.HasEffect slots results (.constF64 value) (.value .f64)
  | localGet {results index type t} :
      slots[index.toNat]? = some t → type.valType? = some t →
      Node.HasEffect slots results (.localGet index type) (.value t)
  | block {results type children} (label : String) :
      Node.EndsWith slots (type.valType? :: results) children type.valType? →
      Node.HasEffect slots results (.block label type children) (.ofResult type.valType?)
  | binary {results op lhs rhs l r} :
      Node.HasEffect slots results lhs l → l.Fits (some op.valType) →
      Node.HasEffect slots results rhs r → r.Fits (some op.valType) →
      Node.HasEffect slots results (.binary op lhs rhs) (.value op.valType)
  | breakTo {results label depth} :
      results[depth]? = some none →
      Node.HasEffect slots results (.breakTo label depth) .diverge
  | breakWith {results label depth result value e} :
      results[depth]? = some result → Node.HasEffect slots results value e →
      result = none ∨ e.Fits result →
      Node.HasEffect slots results (.breakWith label depth value) .diverge
  | ifThen {results type condition thenBody c e} :
      type.valType? = none →
      Node.HasEffect slots results condition c → c.Fits (some .i32) →
      Node.HasEffect slots (none :: results) thenBody e → e.Fits none →
      Node.HasEffect slots results (.ifThen type condition thenBody) .void
  | ifElse {results type condition thenBody elseBody c l r} :
      Node.HasEffect slots results condition c → c.Fits (some .i32) →
      Node.HasEffect slots (type.valType? :: results) thenBody l → l.Fits type.valType? →
      Node.HasEffect slots (type.valType? :: results) elseBody r → r.Fits type.valType? →
      Node.HasEffect slots results (.ifElse type condition thenBody elseBody)
        (.ofResult type.valType?)
  | drop {results value t} :
      Node.HasEffect slots results value (.value t) →
      Node.HasEffect slots results (.drop value) .void

/-- Nodes that stand in sequence end with a result. -/
inductive Node.EndsWith (slots : List Wasm.ValType) :
    Results → List Node → Option Wasm.ValType → Prop where
  | nil {results} : Node.EndsWith slots results [] none
  | last {results n e result} :
      Node.HasEffect slots results n e → e.Fits result → Node.EndsWith slots results [n] result
  | cons {results n e ns result} :
      Node.HasEffect slots results n e → e.Fits none → Node.EndsWith slots results ns result →
      Node.EndsWith slots results (n :: ns) result

end

/-- The type of a node is that of the value it leaves. -/
theorem Node.HasEffect.valType?_type {slots : List Wasm.ValType} {results : Results} {n : Node}
    {e : Effect} (h : n.HasEffect slots results e) : n.type.valType? = e.valType? := by
  cases h with
  | constI32 | constF64 => rfl
  | localGet _ ht => exact ht
  | block => exact (Effect.valType?_ofResult _).symm
  | binary => exact MachineOp.valType?_type _
  | breakTo | breakWith => rfl
  | ifThen ht => exact ht
  | ifElse => exact (Effect.valType?_ofResult _).symm
  | drop => rfl

namespace Lowering

/-- Dropping what a body leaves makes it leave nothing. -/
theorem hasEffect_discard {slots : List Wasm.ValType} {results : Results} {n : Node} {e : Effect}
    (h : n.HasEffect slots results e) :
    ∃ e', (discard n).HasEffect slots results e' ∧ e'.Fits none := by
  have ht := h.valType?_type
  unfold discard
  cases e with
  | value t =>
    rw [ht]
    exact ⟨.void, .drop h, .inl rfl⟩
  | void =>
    rw [ht]
    exact ⟨.void, h, .inl rfl⟩
  | diverge =>
    rw [ht]
    exact ⟨.diverge, h, .inr rfl⟩

theorem checkCondition_of_fits {slots : List Wasm.ValType} {results : Results} {n : Node}
    {e : Effect} (h : n.HasEffect slots results e) (he : e.Fits (some .i32)) :
    checkCondition n.type = .ok () := by
  have ht := h.valType?_type
  rcases he.valType? with hv | hv <;> rw [hv] at ht <;> revert ht <;> cases n.type <;>
    simp [checkCondition, MachineType.valType?]

theorem valType?_joinType (a b : MachineType) :
    (joinType a b).valType? = a.valType?.or b.valType? := by
  cases a <;> rfl

/-- An if leaves a value if one of its bodies does, and the other one at least never completes. -/
theorem valType?_joinType_value {slots : List Wasm.ValType} {results : Results} {l r : Node}
    {el er : Effect} {t : Wasm.ValType} (hl : l.HasEffect slots results el) (hlf : el.Fits (some t))
    (hr : r.HasEffect slots results er) (hrf : er.Fits (some t))
    (h : el = .value t ∨ er = .value t) : (joinType l.type r.type).valType? = some t := by
  rw [valType?_joinType, hl.valType?_type, hr.valType?_type]
  rcases h with rfl | rfl
  · rfl
  · rcases hlf.valType? with hv | hv <;> rw [hv] <;> rfl

theorem valType?_joinType_void {slots : List Wasm.ValType} {results : Results} {l r : Node}
    {el er : Effect} (hl : l.HasEffect slots results el) (hlf : el.Fits none)
    (hr : r.HasEffect slots results er) (hrf : er.Fits none) :
    (joinType l.type r.type).valType? = none := by
  rw [valType?_joinType, hl.valType?_type, hr.valType?_type]
  rcases hlf with rfl | rfl <;> rcases hrf with rfl | rfl <;> rfl

end Lowering

/-! ## Frames -/

/-- The open frames of lowering are those of the given blocks, with frames of ifs between them, and
end with the given results. -/
inductive Aligned : FrameStack → Labels → Results → Prop where
  | nil : Aligned {} [] []
  | block {frames labels results type m} (label : String) :
      type.machineType = .ok m → Aligned frames labels results →
      Aligned (frames.enter (.block label)) ((label, type) :: labels) (m.valType? :: results)
  | cond {frames labels results} (result : Option Wasm.ValType) :
      Aligned frames labels results → Aligned (frames.enter .cond) labels (result :: results)

/-- A label leads to the innermost block that carries it, and there its type says what is due. -/
theorem Aligned.resolve {frames : FrameStack} {labels : Labels} {results : Results}
    (h : Aligned frames labels results) {label : String} {type : ValueType}
    (hl : labels.lookup label = some type) :
    ∃ d m, frames.distance label = .ok d ∧ type.machineType = .ok m ∧
      results[d]? = some m.valType? := by
  induction h with
  | nil => cases hl
  | @block frames labels results type' m label' hm _ ih =>
    rw [List.lookup_cons] at hl
    by_cases heq : label = label'
    · subst heq
      simp only [BEq.rfl, Option.some.injEq] at hl
      subst hl
      exact ⟨0, m, FrameStack.distance_enter_self label frames, hm, rfl⟩
    · have hne : (label == label') = false := by simpa using heq
      have hkind : Frame.Kind.block label' ≠ .block label := fun h => heq (by cases h; rfl)
      rw [hne] at hl
      obtain ⟨d, m', hd, hm', hr⟩ := ih hl
      exact ⟨d + 1, m', (FrameStack.distance_enter_iff hkind frames _).2 ⟨d, hd, rfl⟩, hm', hr⟩
  | @cond frames labels results result _ ih =>
    obtain ⟨d, m, hd, hm, hr⟩ := ih hl
    exact ⟨d + 1, m, (FrameStack.distance_enter_iff (by simp) frames _).2 ⟨d, hd, rfl⟩, hm, hr⟩

/-! ## Lowering -/

section

variable {slots : List ValueType} {slots' : List Wasm.ValType}

/-- The slots hold values of the types that they are declared with. -/
theorem getElem?_slots (hslots : slots.map ValueType.valType? = slots'.map some) {i : Nat}
    {slot : ValueType} {t : Wasm.ValType} (hi : slots[i]? = some slot)
    (ht : slot.valType? = some t) : slots'[i]? = some t := by
  have h := congrArg (·[i]?) hslots
  simpa [hi, ht] using h.symm

mutual

/-- An instruction that has an effect is accepted, and its node has the same effect. -/
theorem Instruction.lowerIn_hasEffect (hslots : slots.map ValueType.valType? = slots'.map some)
    (i : Instruction) {frames : FrameStack} {labels : Labels} {results : Results} {e : Effect}
    (ha : Aligned frames labels results)
    (h : HasEffect slots labels i e) :
    ∃ n, i.lowerIn frames = .ok n ∧ n.HasEffect slots' results e := by
  cases h with
  | constInt32 => exact ⟨_, rfl, .constI32⟩
  | constBool => exact ⟨_, rfl, .constI32⟩
  | constFloat64 => exact ⟨_, rfl, .constF64⟩
  | @localGet _ index _ type t hi hs ht =>
    obtain ⟨m, hm, hv⟩ := ValueType.valType?_eq_some_iff.1 ht
    exact ⟨_, lowerIn_localGet_iff.2 ⟨m, hm, rfl⟩, .localGet (getElem?_slots hslots hi hs) hv⟩
  | @binaryOp _ op type m t lhs rhs _ _ hop ht hl hlf hr hrf =>
    obtain ⟨l, hl', hlt⟩ := lowerIn_hasEffect hslots lhs ha hl
    obtain ⟨r, hr', hrt⟩ := lowerIn_hasEffect hslots rhs ha hr
    obtain rfl : m.valType = t := Arith.valType_of_machineOp hop ht
    exact ⟨_, lowerIn_binaryOp_iff.2 ⟨l, hl', r, hr', m, hop, rfl⟩, .binary hlt hlf hrt hrf⟩
  | @breakNever _ label hl =>
    obtain ⟨d, m, hd, hm, hr⟩ := ha.resolve hl
    cases hm
    exact ⟨_, lowerIn_breakTo_iff.2 ⟨d, hd, rfl⟩, .breakTo hr⟩
  | @breakNeverWith _ label value _ hl hv =>
    obtain ⟨d, m, hd, hm, hr⟩ := ha.resolve hl
    obtain ⟨v, hv', hvt⟩ := lowerIn_hasEffect hslots value ha hv
    cases hm
    exact ⟨_, lowerIn_breakWith_iff.2 ⟨v, hv', d, hd, rfl⟩, .breakWith hr hvt (.inl rfl)⟩
  | @breakWith _ label type t value _ hl ht hv hvf =>
    obtain ⟨d, m, hd, hm, hr⟩ := ha.resolve hl
    obtain ⟨v, hv', hvt⟩ := lowerIn_hasEffect hslots value ha hv
    obtain ⟨m', hm', hmv⟩ := ValueType.valType?_eq_some_iff.1 ht
    rw [hm] at hm'
    cases hm'
    rw [← hmv] at hvf
    exact ⟨_, lowerIn_breakWith_iff.2 ⟨v, hv', d, hd, rfl⟩, .breakWith hr hvt (.inr hvf)⟩
  | @ifThen _ condition thenBody _ _ hc hcf ht =>
    obtain ⟨c, hc', hct⟩ := lowerIn_hasEffect hslots condition ha hc
    obtain ⟨t, ht', htt⟩ := lowerIn_hasEffect hslots thenBody (ha.cond none) ht
    obtain ⟨e, hd, hdf⟩ := Lowering.hasEffect_discard htt
    have hu := Lowering.checkCondition_of_fits hct hcf
    exact ⟨_, lowerIn_ifThen_iff.2 ⟨c, hc', hu, t, ht', rfl⟩, .ifThen rfl hct hcf hd hdf⟩
  | @ifElseValue _ condition thenBody elseBody _ _ _ t hc hcf hl hlf hr hrf hv =>
    obtain ⟨c, hc', hct⟩ := lowerIn_hasEffect hslots condition ha hc
    obtain ⟨l, hl', hlt⟩ := lowerIn_hasEffect hslots thenBody (ha.cond (some t)) hl
    obtain ⟨r, hr', hrt⟩ := lowerIn_hasEffect hslots elseBody (ha.cond (some t)) hr
    have hj := Lowering.valType?_joinType_value hlt hlf hrt hrf hv
    have hn : Node.HasEffect slots' results (.ifElse (Lowering.joinType l.type r.type) c l r) _ :=
      .ifElse hct hcf (hj ▸ hlt) (hj ▸ hlf) (hj ▸ hrt) (hj ▸ hrf)
    rw [hj] at hn
    have hu := Lowering.checkCondition_of_fits hct hcf
    exact ⟨_, lowerIn_ifElse_iff.2 ⟨c, hc', hu, l, hl', r, hr', rfl⟩, hn⟩
  | @ifElseVoid _ condition thenBody elseBody _ _ _ hc hcf hl hlf hr hrf =>
    obtain ⟨c, hc', hct⟩ := lowerIn_hasEffect hslots condition ha hc
    obtain ⟨l, hl', hlt⟩ := lowerIn_hasEffect hslots thenBody (ha.cond none) hl
    obtain ⟨r, hr', hrt⟩ := lowerIn_hasEffect hslots elseBody (ha.cond none) hr
    have hj := Lowering.valType?_joinType_void hlt hlf hrt hrf
    have hn : Node.HasEffect slots' results (.ifElse (Lowering.joinType l.type r.type) c l r) _ :=
      .ifElse hct hcf (hj ▸ hlt) (hj ▸ hlf) (hj ▸ hrt) (hj ▸ hrf)
    rw [hj] at hn
    have hu := Lowering.checkCondition_of_fits hct hcf
    exact ⟨_, lowerIn_ifElse_iff.2 ⟨c, hc', hu, l, hl', r, hr', rfl⟩, hn⟩
  | @blockNever _ label children hc =>
    have hm : ValueType.never.machineType = .ok .unreachable := rfl
    obtain ⟨ns, hns, ht⟩ := lowerAllIn_endsWith hslots children (ha.block label hm) hc
    exact ⟨_, lowerIn_block_iff.2 ⟨_, hm, ns, hns, rfl⟩, .block label ht⟩
  | @blockValue _ label type t children hv hc =>
    obtain ⟨m, hm, hmv⟩ := ValueType.valType?_eq_some_iff.1 hv
    obtain ⟨ns, hns, ht⟩ := lowerAllIn_endsWith hslots children (ha.block label hm) hc
    rw [← hmv] at ht
    have hn := Node.HasEffect.block label ht
    rw [hmv] at hn
    exact ⟨_, lowerIn_block_iff.2 ⟨m, hm, ns, hns, rfl⟩, hn⟩

/-- A sequence that ends with a result becomes a sequence of nodes that does. -/
theorem Instruction.lowerAllIn_endsWith (hslots : slots.map ValueType.valType? = slots'.map some)
    (is : List Instruction) {frames : FrameStack} {labels : Labels} {results : Results}
    {result : Option Wasm.ValType}
    (ha : Aligned frames labels results) (h : EndsWith slots labels is result) :
    ∃ ns, lowerAllIn frames is = .ok ns ∧ Node.EndsWith slots' results ns result := by
  cases h with
  | nil => exact ⟨[], rfl, .nil⟩
  | @last _ i _ _ hi hf =>
    obtain ⟨n, hn, ht⟩ := lowerIn_hasEffect hslots i ha hi
    exact ⟨[n], lowerAllIn_cons_iff.2 ⟨n, hn, [], rfl, rfl⟩, .last ht hf⟩
  | @cons _ i _ is _ hi hf his =>
    obtain ⟨n, hn, ht⟩ := lowerIn_hasEffect hslots i ha hi
    obtain ⟨ns, hns, hts⟩ := lowerAllIn_endsWith hslots is ha his
    exact ⟨n :: ns, lowerAllIn_cons_iff.2 ⟨n, hn, ns, hns, rfl⟩, .cons ht hf hts⟩

end

/-- Whatever node an instruction that has an effect becomes has the same effect. -/
theorem Instruction.hasEffect_of_lowerIn (hslots : slots.map ValueType.valType? = slots'.map some)
    {i : Instruction} {frames : FrameStack} {labels : Labels} {results : Results} {e : Effect}
    {n : Node} (ha : Aligned frames labels results) (h : HasEffect slots labels i e)
    (hn : i.lowerIn frames = .ok n) : n.HasEffect slots' results e := by
  obtain ⟨n', hn', hne⟩ := i.lowerIn_hasEffect hslots ha h
  rw [hn] at hn'
  cases hn'
  exact hne

/-- So does whatever sequence of nodes a sequence becomes. -/
theorem Instruction.endsWith_of_lowerAllIn
    (hslots : slots.map ValueType.valType? = slots'.map some) {is : List Instruction}
    {frames : FrameStack} {labels : Labels} {results : Results} {result : Option Wasm.ValType}
    {ns : List Node} (ha : Aligned frames labels results) (h : EndsWith slots labels is result)
    (hns : lowerAllIn frames is = .ok ns) : Node.EndsWith slots' results ns result := by
  obtain ⟨ns', hns', hne⟩ := lowerAllIn_endsWith hslots is ha h
  rw [hns] at hns'
  cases hns'
  exact hne

end

end TreeWasm
