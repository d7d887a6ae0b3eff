-- SUMMARY: Code of a node that has an effect passes the checker, and yields that effect.
import TreeWasm.Proofs.Machine.Code
import TreeWasm.Proofs.Typing.Node
import TreeWasm.Proofs.Validation.Effect

/-!
# Soundness of effects

The checker accepts the code of a node that has an effect, whatever else is on its stack
(`Node.stepsBasic_operators`). The induction is on the node. What it carries is the effect of the
code so far (`Yields`) and that the open frames of the checker are labelled with the results that
the judgement speaks of (`Labelled`).
-/

namespace TreeWasm

open Wasm Wasm.Validation

namespace Wasm.Validation

/-! ## Basic operators -/

/-- Check operators that this library writes, in order. -/
def stepsBasic (s : Scope) (cs : Controls) (ops : List Operator) : Except Cause Controls :=
  ops.foldlM (stepBasic s) cs

theorem steps_map_basic (s : Scope) (cs : Controls) (ops : List Operator) :
    steps s cs (ops.map .basic) = stepsBasic s cs ops := by
  unfold steps stepsBasic
  rw [List.foldlM_map]
  rfl

@[simp] theorem stepsBasic_nil (s : Scope) (cs : Controls) : stepsBasic s cs [] = .ok cs := rfl

theorem stepsBasic_cons (s : Scope) (cs : Controls) (op : Operator) (ops : List Operator) :
    stepsBasic s cs (op :: ops) = (stepBasic s cs op >>= fun cs => stepsBasic s cs ops) := rfl

theorem stepsBasic_append (s : Scope) (cs : Controls) (xs ys : List Operator) :
    stepsBasic s cs (xs ++ ys) = (stepsBasic s cs xs >>= fun cs => stepsBasic s cs ys) :=
  List.foldlM_append

theorem stepsBasic_singleton (s : Scope) (cs : Controls) (op : Operator) :
    stepsBasic s cs [op] = stepBasic s cs op := by
  rw [stepsBasic_cons]
  exact bind_pure _

/-- Code in front of other code is checked first. -/
theorem stepsBasic_append_of_ok {s : Scope} {cs cs' : Controls} {xs : List Operator}
    (h : stepsBasic s cs xs = .ok cs') (ys : List Operator) :
    stepsBasic s cs (xs ++ ys) = stepsBasic s cs' ys := by
  rw [stepsBasic_append, h]
  rfl

theorem stepsBasic_cons_of_ok {s : Scope} {cs cs' : Controls} {op : Operator}
    (h : stepBasic s cs op = .ok cs') (ops : List Operator) :
    stepsBasic s cs (op :: ops) = stepsBasic s cs' ops := by
  rw [stepsBasic_cons, h]
  rfl

/-! ## Frames that open and close -/

/-- The frame of a construct that takes nothing and ends with a result. -/
def Control.entered (construct : Construct) (result : Option ValType) : Control :=
  .opened construct ⟨[], result.toList⟩

variable (s : Scope) (cs : Controls)

/-- A frame that leaves no reference is of the same type in every module. -/
theorem blockArrow_result {result : Option ValType} (hr : ∀ t ∈ result, t.ref? = none) :
    s.blockArrow (.result result) = .ok ⟨[], result.toList⟩ := by
  cases result with
  | none => rfl
  | some t =>
    simp only [Scope.blockArrow, Context.resolve_of_ref?_eq_none (hr t rfl), bind, Except.bind]
    rfl

theorem stepBasic_block_eq {result : Option ValType} (hr : ∀ t ∈ result, t.ref? = none) :
    stepBasic s cs (.block result) = openFrame s.types .block ⟨[], result.toList⟩ cs := by
  simp only [stepBasic, blockArrow_result s hr, bind, Except.bind]

theorem stepBasic_cond_eq {result : Option ValType} (hr : ∀ t ∈ result, t.ref? = none) :
    stepBasic s cs (.cond result) =
      (pop s.types .i32 cs >>= openFrame s.types .cond ⟨[], result.toList⟩) := by
  simp only [stepBasic, blockArrow_result s hr, bind, Except.bind]

theorem stepBasic_block {result : Option ValType} (hr : ∀ t ∈ result, t.ref? = none) (c : Control) :
    stepBasic s (c :: cs) (.block result) = .ok (.entered .block result :: c :: cs) := by
  rw [stepBasic_block_eq s _ hr]
  rfl

theorem stepBasic_cond {c c' : Control} {result : Option ValType} (hr : ∀ t ∈ result, t.ref? = none)
    (h : pop s.types .i32 (c :: cs) = .ok (c' :: cs)) :
    stepBasic s (c :: cs) (.cond result) = .ok (.entered .cond result :: c' :: cs) := by
  rw [stepBasic_cond_eq s _ hr, h]
  rfl

theorem stepBasic_numeric {c c' c'' : Control} (op : MachineOp)
    (h : pop s.types op.valType (c :: cs) = .ok (c' :: cs))
    (h' : pop s.types op.valType (c' :: cs) = .ok (c'' :: cs)) :
    stepBasic s (c :: cs) (.numeric op) = .ok (c''.pushed op.valType :: cs) := by
  simp only [stepBasic, h, h', bind, Except.bind]
  rfl

theorem stepBasic_drop {c c' : Control} {o : Operand}
    (h : popOperand (c :: cs) = .ok (o, c' :: cs)) :
    stepBasic s (c :: cs) .drop = .ok (c' :: cs) := by
  simp only [stepBasic, h, bind, Except.bind]
  rfl

/-- Slots that hold no reference always have a value. -/
theorem stepBasic_localGet {index : UInt32} {t : ValType} (hr : t.ref? = none) (c : Control)
    (h : s.locals[index.toNat]? = some t) :
    stepBasic s (c :: cs) (.localGet index) = .ok (c.pushed t :: cs) := by
  have hd : t.hasDefault = true := by rw [ValType.hasDefault, hr]; rfl
  simp only [stepBasic, Scope.slot, h, orFault, bind, Except.bind, hd, true_or, ite_true]
  rfl

theorem stepBasic_branch {c c' : Control} {depth : Nat} {types : List ValType}
    (hl : labelAt depth (c :: cs) = .ok types)
    (h : popAll s.types types (c :: cs) = .ok (c' :: cs)) :
    stepBasic s (c :: cs) (.branch depth) = .ok (c'.dead :: cs) := by
  simp only [stepBasic, branch, hl, h, bind, Except.bind]
  rfl

/-- A frame with its result in it ends, and the frame around it has the result. -/
theorem stepBasic_finish {construct : Construct} {result : Option ValType} {e : Effect}
    {c c' : Control} (h : Yields (.entered construct result) e c') (he : e.Fits result)
    (hc : construct ≠ .cond) :
    stepBasic s (c' :: c :: cs) .finish = .ok (c.finished result :: cs) := by
  obtain ⟨c₂, hclose, hconstruct, harrow⟩ := h.close s.types (c :: cs) he rfl rfl
  have hne : c₂.construct ≠ .cond := hconstruct ▸ hc
  simp only [stepBasic, hclose, bind, Except.bind, hne, ite_false, harrow]
  exact leave_result result c cs

/-- The end of a body leaves no frame. -/
theorem stepBasic_finish_body {result : Option ValType} {e : Effect} {c' : Control}
    (h : Yields (.entered .body result) e c') (he : e.Fits result) :
    stepBasic s [c'] .finish = .ok [] := by
  obtain ⟨c₂, hclose, hconstruct, harrow⟩ := h.close s.types [] he rfl rfl
  have hne : c₂.construct ≠ .cond := by
    rw [hconstruct]
    exact nofun
  simp only [stepBasic, hclose, bind, Except.bind, hne, ite_false]
  rfl

/-- An if may end without an alternative where no result is due. -/
theorem stepBasic_finish_cond {e : Effect} {c c' : Control} (h : Yields (.entered .cond none) e c')
    (he : e.Fits none) : stepBasic s (c' :: c :: cs) .finish = .ok (c :: cs) := by
  obtain ⟨c₂, hclose, hconstruct, harrow⟩ := h.close s.types (c :: cs) he rfl rfl
  have hc : c₂.construct = .cond := hconstruct
  simp only [stepBasic, hclose, bind, Except.bind, hc, ite_true, harrow]
  rfl

theorem stepBasic_alternative {result : Option ValType} {e : Effect} {c c' : Control}
    (h : Yields (.entered .cond result) e c') (he : e.Fits result) :
    stepBasic s (c' :: c :: cs) .alternative = .ok (.entered .alternative result :: c :: cs) := by
  obtain ⟨c₂, hclose, hconstruct, harrow⟩ := h.close s.types (c :: cs) he rfl rfl
  have hc : c₂.construct = .cond := hconstruct
  simp only [stepBasic, hclose, bind, Except.bind, hc, ite_true, harrow]
  rfl

/-! ## Labels -/

theorem labelAt_eq_ok_iff {d : Nat} {cs : Controls} {types : List ValType} :
    labelAt d cs = .ok types ↔ ∃ c, cs[d]? = some c ∧ c.label = types := by
  cases cs with
  | nil => simp [labelAt]
  | cons c cs =>
    unfold labelAt
    cases (c :: cs)[d]? <;> simp

/-- The slots of a body are of the given types. -/
def Scope.HasSlots (s : Scope) (slots : List ValType) : Prop :=
  ∀ (i : Nat) (t : ValType), slots[i]? = some t → s.locals[i]? = some t

/-- The innermost frames are left with the given results. There may be more frames around them. -/
def Labelled (cs : Controls) (results : Results) : Prop :=
  ∀ (d : Nat) (result : Option ValType), results[d]? = some result →
    ∃ c, cs[d]? = some c ∧ c.label = result.toList

theorem Labelled.labelAt {cs : Controls} {results : Results} (h : Labelled cs results) {d : Nat}
    {result : Option ValType} (hd : results[d]? = some result) :
    labelAt d cs = .ok result.toList :=
  labelAt_eq_ok_iff.2 (h d result hd)

theorem labelled_nil (cs : Controls) : Labelled cs [] := nofun

variable {s cs}

theorem Labelled.enter {c : Control} {results : Results} (h : Labelled cs results)
    {result : Option ValType} (hc : c.label = result.toList) :
    Labelled (c :: cs) (result :: results) := by
  intro d result' hd
  cases d with
  | zero =>
    cases hd
    exact ⟨c, rfl, hc⟩
  | succ d => exact h d result' hd

theorem Labelled.of_yields {c c' : Control} {results : Results} {e : Effect}
    (h : Labelled (c :: cs) results) (hy : Yields c e c') : Labelled (c' :: cs) results := by
  intro d result hd
  cases d with
  | zero =>
    obtain ⟨_, h₀, hc⟩ := h 0 result hd
    cases h₀
    refine ⟨c', rfl, ?_⟩
    rw [← hc, Control.label, Control.label, hy.same.1, hy.same.2.1]
  | succ d => exact h (d + 1) result hd

end Wasm.Validation

/-! ## Nodes -/

namespace Node

variable {slots : List ValType} {s : Scope}

mutual

/-- Code of a node that has an effect passes, and yields the effect. -/
theorem stepsBasic_operators (hs : s.HasSlots slots)
    (n : Node) {results : Results} {e : Effect} {c : Control} {cs : Controls}
    (hl : Labelled (c :: cs) results) (h : n.HasEffect slots results e) :
    ∃ c', stepsBasic s (c :: cs) n.operators = .ok (c' :: cs) ∧ Yields c e c' := by
  cases h with
  | constI32 => exact ⟨c.pushed .i32, rfl, .value _⟩
  | constF64 => exact ⟨c.pushed .f64, rfl, .value _⟩
  | @localGet _ index _ t hi ht =>
    refine ⟨c.pushed t, ?_, .value _⟩
    rw [operators_localGet, stepsBasic_singleton,
      stepBasic_localGet s cs (MachineType.ref?_of_valType? ht) c (hs _ _ hi)]
  | @block _ type children label hc =>
    have hr : ∀ t ∈ type.valType?, t.ref? = none := fun _ => MachineType.ref?_of_valType?
    obtain ⟨e, c₁, he, hrun, hy⟩ :=
      stepsBasic_operatorsAll hs children (c := .entered .block type.valType?) (hl.enter rfl) hc
    refine ⟨c.finished type.valType?, ?_, .finished c _⟩
    rw [operators_block, stepsBasic_cons_of_ok (stepBasic_block s cs hr c),
      stepsBasic_append_of_ok hrun, stepsBasic_singleton, stepBasic_finish s cs hy he nofun]
  | @binary _ op lhs rhs _ _ hlt hlf hrt hrf =>
    obtain ⟨c₁, hrun₁, hy₁⟩ := stepsBasic_operators hs lhs hl hlt
    obtain ⟨c₂, hrun₂, hy₂⟩ := stepsBasic_operators hs rhs (hl.of_yields hy₁) hrt
    obtain ⟨c₃, hpop₃, hy₃⟩ := hy₂.pop s.types cs hrf
    obtain ⟨c₄, hpop₄, hy₄⟩ := (hy₁.before hy₃).pop s.types cs hlf
    refine ⟨c₄.pushed op.valType, ?_, hy₄.after (.value _)⟩
    rw [operators_binary, stepsBasic_append_of_ok hrun₁, stepsBasic_append_of_ok hrun₂,
      stepsBasic_singleton, stepBasic_numeric s cs op hpop₃ hpop₄]
  | @breakTo _ label depth hd =>
    refine ⟨c.dead, ?_, .dead _⟩
    rw [operators_breakTo, stepsBasic_singleton,
      stepBasic_branch s cs (hl.labelAt hd) (popAll_none s.types _)]
  | @breakWith _ label depth result value e hd hv hvf =>
    obtain ⟨c₁, hrun, hy⟩ := stepsBasic_operators hs value hl hv
    obtain ⟨c₂, hpop, hdead⟩ : ∃ c₂, popAll s.types result.toList (c₁ :: cs) =
        .ok (c₂ :: cs) ∧ c₂.dead = c.dead := by
      rcases hvf with rfl | hf
      · exact ⟨c₁, popAll_none s.types _, hy.dead_eq⟩
      · obtain ⟨c₂, hpop, hy'⟩ := hy.popAll s.types cs hf
        exact ⟨c₂, hpop, hy'.dead_eq⟩
    refine ⟨c.dead, ?_, .dead _⟩
    rw [operators_breakWith, stepsBasic_append_of_ok hrun, stepsBasic_singleton,
      stepBasic_branch s cs ((hl.of_yields hy).labelAt hd) hpop, hdead]
  | @ifThen _ type condition thenBody _ _ htype hc hcf ht htf =>
    have hr : ∀ t ∈ (none : Option ValType), t.ref? = none := nofun
    obtain ⟨c₁, hrun₁, hy₁⟩ := stepsBasic_operators hs condition hl hc
    obtain ⟨c₂, hpop, hy₂⟩ := hy₁.pop s.types cs hcf
    obtain ⟨c₃, hrun₃, hy₃⟩ := stepsBasic_operators hs thenBody (c := .entered .cond none)
      ((hl.of_yields hy₂).enter rfl) ht
    refine ⟨c₂, ?_, hy₂⟩
    rw [operators_ifThen, htype, stepsBasic_append_of_ok hrun₁,
      stepsBasic_cons_of_ok (stepBasic_cond s cs hr hpop), stepsBasic_append_of_ok hrun₃,
      stepsBasic_singleton, stepBasic_finish_cond s cs hy₃ htf]
  | @ifElse _ type condition thenBody elseBody _ _ _ hc hcf hlt hlf hrt hrf =>
    have hr : ∀ t ∈ type.valType?, t.ref? = none := fun _ => MachineType.ref?_of_valType?
    obtain ⟨c₁, hrun₁, hy₁⟩ := stepsBasic_operators hs condition hl hc
    obtain ⟨c₂, hpop, hy₂⟩ := hy₁.pop s.types cs hcf
    have hl₂ := hl.of_yields hy₂
    obtain ⟨c₃, hrun₃, hy₃⟩ := stepsBasic_operators hs thenBody
      (c := .entered .cond type.valType?) (hl₂.enter rfl) hlt
    obtain ⟨c₄, hrun₄, hy₄⟩ := stepsBasic_operators hs elseBody
      (c := .entered .alternative type.valType?) (hl₂.enter rfl) hrt
    refine ⟨c₂.finished type.valType?, ?_, hy₂.after (.finished c₂ _)⟩
    rw [operators_ifElse, stepsBasic_append_of_ok hrun₁,
      stepsBasic_cons_of_ok (stepBasic_cond s cs hr hpop), stepsBasic_append_of_ok hrun₃,
      stepsBasic_cons_of_ok (stepBasic_alternative s cs hy₃ hlf), stepsBasic_append_of_ok hrun₄,
      stepsBasic_singleton, stepBasic_finish s cs hy₄ hrf nofun]
  | @drop _ value t hv =>
    obtain ⟨c₁, hrun, hy⟩ := stepsBasic_operators hs value hl hv
    obtain ⟨o, c₂, hpop, hy'⟩ := hy.popOperand cs
    refine ⟨c₂, ?_, hy'⟩
    rw [operators_drop, stepsBasic_append_of_ok hrun, stepsBasic_singleton,
      stepBasic_drop s cs hpop]

/-- So does code of nodes in sequence, which yields what the sequence ends with. -/
theorem stepsBasic_operatorsAll (hs : s.HasSlots slots)
    (ns : List Node) {results : Results} {result : Option ValType} {c : Control} {cs : Controls}
    (hl : Labelled (c :: cs) results) (h : Node.EndsWith slots results ns result) :
    ∃ e c', e.Fits result ∧ stepsBasic s (c :: cs) (operatorsAll ns) = .ok (c' :: cs) ∧
      Yields c e c' := by
  cases h with
  | nil => exact ⟨.void, c, .inl rfl, rfl, .void⟩
  | @last _ n e _ hn hf =>
    obtain ⟨c', hrun, hy⟩ := stepsBasic_operators hs n hl hn
    refine ⟨e, c', hf, ?_, hy⟩
    rw [operatorsAll_cons, operatorsAll_nil, List.append_nil, hrun]
  | @cons _ n e ns _ hn hf hns =>
    obtain ⟨c₁, hrun₁, hy₁⟩ := stepsBasic_operators hs n hl hn
    obtain ⟨e', c₂, hf', hrun₂, hy₂⟩ := stepsBasic_operatorsAll hs ns (hl.of_yields hy₁) hns
    refine ⟨e', c₂, hf', ?_, (hy₁.void_of_fits hf).after hy₂⟩
    rw [operatorsAll_cons, stepsBasic_append_of_ok hrun₁, hrun₂]

end

end Node

end TreeWasm
