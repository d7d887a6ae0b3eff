-- SUMMARY: The operators of machine nodes are checked in the same way in every module.
import TreeWasm.Proofs.Validation.Soundness
import TreeWasm.Wasm.Validation.Code

/-!
# Plain code

The checker asks the module only about references. Frames that neither take nor leave any are
`Plain`; in such frames, whether code is valid depends on the slots and the results of the function
alone (`stepsBasic_congr`). The code of a node opens no other frames (`Node.isPlain_operators`).

The same walk over the operators bounds the number of open frames, and with them the depth of
branches.
-/

namespace TreeWasm

open Wasm Wasm.Validation

/-! ## Plain operators -/

/-- An operator opens no frame that leaves a reference. -/
def Wasm.Operator.IsPlain : Operator → Prop
  | .block result | .cond result => ∀ t ∈ result, t.ref? = none
  | _ => True

namespace Node

theorem isPlain_valType? (type : MachineType) : ∀ t ∈ type.valType?, t.ref? = none :=
  fun _ => MachineType.ref?_of_valType?

mutual

theorem isPlain_operators (n : Node) : ∀ op ∈ n.operators, op.IsPlain := by
  cases n with
  | constI32 | constF64 | localGet | breakTo => simp [Operator.IsPlain]
  | block label type children =>
    have hchildren := isPlain_operatorsAll children
    simpa [operators_block, Operator.IsPlain, or_imp, forall_and] using
      ⟨isPlain_valType? type, hchildren⟩
  | binary op lhs rhs =>
    have hlhs := isPlain_operators lhs
    have hrhs := isPlain_operators rhs
    simpa [operators_binary, Operator.IsPlain, or_imp, forall_and] using ⟨hlhs, hrhs⟩
  | breakWith label depth value =>
    have hvalue := isPlain_operators value
    simpa [operators_breakWith, Operator.IsPlain, or_imp, forall_and] using hvalue
  | ifThen type condition thenBody =>
    have hcondition := isPlain_operators condition
    have hthen := isPlain_operators thenBody
    simpa [operators_ifThen, Operator.IsPlain, or_imp, forall_and] using
      ⟨hcondition, isPlain_valType? type, hthen⟩
  | ifElse type condition thenBody elseBody =>
    have hcondition := isPlain_operators condition
    have hthen := isPlain_operators thenBody
    have helse := isPlain_operators elseBody
    simpa [operators_ifElse, Operator.IsPlain, or_imp, forall_and] using
      ⟨hcondition, isPlain_valType? type, hthen, helse⟩
  | drop value =>
    have hvalue := isPlain_operators value
    simpa [operators_drop, Operator.IsPlain, or_imp, forall_and] using hvalue

theorem isPlain_operatorsAll (ns : List Node) : ∀ op ∈ operatorsAll ns, op.IsPlain := by
  cases ns with
  | nil => simp
  | cons n ns =>
    have hn := isPlain_operators n
    have hns := isPlain_operatorsAll ns
    simpa [operatorsAll_cons, or_imp, forall_and] using ⟨hn, hns⟩

end

end Node

namespace Wasm

/-! ## Plain types -/

/-- Types of numbers and vectors, which refer to nothing. -/
def AllPlain (types : List ValType) : Prop := ∀ t ∈ types, t.ref? = none

theorem allPlain_nil : AllPlain [] := nofun

/-- A function neither takes nor gives back references. -/
structure FuncType.Plain (t : FuncType) : Prop where
  params : AllPlain t.params
  results : AllPlain t.results

namespace Validation

/-! ## Plain frames -/

/-- Open frames that neither take nor leave references. -/
def Plain (cs : Controls) : Prop := ∀ c ∈ cs, c.arrow.Plain

theorem allPlain_label {c : Control} (h : c.arrow.Plain) : AllPlain c.label := by
  unfold Control.label
  split
  · exact h.params
  · exact h.results

theorem plain_cons {c : Control} {cs : Controls} : Plain (c :: cs) ↔ c.arrow.Plain ∧ Plain cs :=
  List.forall_mem_cons

/-! ## What stays -/

/-- As many frames are open as before, the innermost of them for the same construct, and they are
still plain. -/
structure Keeps (cs cs' : Controls) : Prop where
  length : cs'.length = cs.length
  construct : cs'.head?.map Control.construct = cs.head?.map Control.construct
  plain : Plain cs → Plain cs'

namespace Keeps

variable {cs cs' cs'' : Controls}

theorem refl (cs : Controls) : Keeps cs cs := ⟨rfl, rfl, id⟩

theorem trans (h : Keeps cs cs') (h' : Keeps cs' cs'') : Keeps cs cs'' :=
  ⟨h'.length.trans h.length, h'.construct.trans h.construct, fun hp => h'.plain (h.plain hp)⟩

/-- The operands of the innermost frame become other ones. -/
theorem head {c c' : Control} (cs : Controls) (hconstruct : c'.construct = c.construct)
    (harrow : c'.arrow = c.arrow) : Keeps (c :: cs) (c' :: cs) where
  length := rfl
  construct := congrArg some hconstruct
  plain hp := by
    obtain ⟨hc, hcs⟩ := plain_cons.1 hp
    exact plain_cons.2 ⟨harrow ▸ hc, hcs⟩

end Keeps

section

variable {types types' : Types} {cs cs' : Controls}

theorem keeps_push {t : ValType} (h : push t cs = .ok cs') : Keeps cs cs' := by
  cases cs with
  | nil => cases h
  | cons c cs =>
    cases h
    exact .head cs rfl rfl

theorem keeps_pop {t : ValType} (h : pop types t cs = .ok cs') : Keeps cs cs' := by
  cases cs with
  | nil => cases h
  | cons c cs =>
    simp only [pop] at h
    split at h
    · obtain ⟨-, -, h⟩ := bind_eq_ok_iff.1 h
      cases h
      exact .head cs rfl rfl
    · split at h
      · cases h
        exact .refl _
      · cases h

theorem keeps_popOperand {o : Operand} (h : popOperand cs = .ok (o, cs')) : Keeps cs cs' := by
  cases cs with
  | nil => cases h
  | cons c cs =>
    simp only [popOperand] at h
    split at h
    · cases h
      exact .head cs rfl rfl
    · split at h
      · cases h
        exact .refl _
      · cases h

/-- What holds of each step of a fold that does not fail holds of all of them. -/
theorem keeps_foldlM {f : Controls → α → Except Cause Controls} {as : List α}
    (hf : ∀ a ∈ as, ∀ cs cs', f cs a = .ok cs' → Keeps cs cs') (h : as.foldlM f cs = .ok cs') :
    Keeps cs cs' := by
  induction as generalizing cs with
  | nil =>
    cases h
    exact .refl _
  | cons a as ih =>
    rw [List.foldlM_cons] at h
    obtain ⟨cs₁, h₁, h⟩ := bind_eq_ok_iff.1 h
    exact (hf a List.mem_cons_self _ _ h₁).trans
      (ih (fun a ha => hf a (List.mem_cons_of_mem _ ha)) h)

theorem keeps_popAll {ts : List ValType} (h : popAll types ts cs = .ok cs') : Keeps cs cs' :=
  keeps_foldlM (fun _ _ _ _ h => keeps_pop h) h

theorem keeps_leave {ts : List ValType} (h : leave ts cs = .ok cs') : Keeps cs cs' := by
  cases cs with
  | nil =>
    cases h
    exact .refl _
  | cons c cs => exact keeps_foldlM (fun _ _ _ _ h => keeps_push h) h

theorem keeps_becomeUnreachable (cs : Controls) : Keeps cs (becomeUnreachable cs) := by
  cases cs with
  | nil => exact .refl _
  | cons c cs => exact .head cs rfl rfl

theorem keeps_close {c : Control} (h : close types cs = .ok (c, cs')) : Keeps cs (c :: cs') := by
  cases cs with
  | nil => cases h
  | cons c₀ cs =>
    obtain ⟨cs₁, h₁, h⟩ := bind_eq_ok_iff.1 h
    split at h
    · cases h
    · split at h
      · cases h
        exact keeps_popAll h₁
      · cases h

/-- One more frame is open behind the start of a frame. -/
theorem openFrame_eq_ok {construct : Construct} {arrow : FuncType}
    (h : openFrame types construct arrow cs = .ok cs') :
    ∃ cs₁, Keeps cs cs₁ ∧ cs' = .opened construct arrow :: cs₁ := by
  obtain ⟨cs₁, h₁, h⟩ := bind_eq_ok_iff.1 h
  split at h
  · cases h
  · cases h
    exact ⟨_, keeps_popAll h₁, rfl⟩

/-- A frame is opened inside another one. -/
theorem ne_nil_of_openFrame {construct : Construct} {arrow : FuncType}
    (h : openFrame types construct arrow cs = .ok cs') : cs ≠ [] := by
  rintro rfl
  obtain ⟨cs₁, h₁, h⟩ := bind_eq_ok_iff.1 h
  obtain rfl := List.eq_nil_of_length_eq_zero (keeps_popAll h₁).length
  cases h

/-! ## Types of the module -/

/-- What follows a computation matters only where the computation succeeds. -/
theorem bind_congr_of_ok {x : Except ε α} {f g : α → Except ε β}
    (h : ∀ a, x = .ok a → f a = g a) : (x >>= f) = (x >>= g) := by
  cases x with
  | error _ => rfl
  | ok a => exact h a rfl

variable (types types')

theorem checkOperand_congr {t : ValType} (ht : t.ref? = none) (o : Operand) :
    checkOperand types t o = checkOperand types' t o := by
  cases o with
  | unknown => rfl
  | unknownRef => simp only [checkOperand, ht]
  | known found => simp only [checkOperand, Types.isSubtype_plain ht]

theorem pop_congr {t : ValType} (ht : t.ref? = none) : pop types t cs = pop types' t cs := by
  cases cs with
  | nil => rfl
  | cons c cs => simp only [pop, checkOperand_congr types types' ht]

theorem popAll_congr {ts : List ValType} (ht : AllPlain ts) :
    popAll types ts cs = popAll types' ts cs := by
  have ht : AllPlain ts.reverse := fun t h => ht t (List.mem_reverse.1 h)
  unfold popAll
  generalize ts.reverse = us at ht
  induction us generalizing cs with
  | nil => rw [List.foldlM_nil, List.foldlM_nil]
  | cons u us ih =>
    rw [List.foldlM_cons, List.foldlM_cons, pop_congr types types' (ht u List.mem_cons_self)]
    exact bind_congr_of_ok fun cs₁ _ => ih fun t h => ht t (List.mem_cons_of_mem u h)

theorem close_congr (hp : Plain cs) : close types cs = close types' cs := by
  cases cs with
  | nil => rfl
  | cons c cs =>
    simp only [close, popAll_congr types types' (plain_cons.1 hp).1.results]

theorem openFrame_congr (construct : Construct) {arrow : FuncType} (ht : AllPlain arrow.params) :
    openFrame types construct arrow cs = openFrame types' construct arrow cs := by
  unfold openFrame
  rw [popAll_congr types types' ht]

theorem branch_congr (hp : Plain cs) (depth : Nat) :
    branch types depth cs = branch types' depth cs := by
  unfold branch
  apply bind_congr_of_ok
  intro label hl
  obtain ⟨c, hc, rfl⟩ := labelAt_eq_ok_iff.1 hl
  rw [popAll_congr types types' (allPlain_label (hp c (List.mem_of_getElem? hc)))]

end

/-! ## Operators -/

theorem Keeps.follows {cs cs' : Controls} (h : Keeps cs cs') (hp : Plain cs) :
    Plain cs' ∧ cs'.length ≤ cs.length + 1 := by
  refine ⟨h.plain hp, ?_⟩
  rw [h.length]
  exact Nat.le_succ _

theorem follows_of_openFrame {s : Scope} {cs cs₀ cs' : Controls} {construct : Construct}
    {result : Option ValType} (hr : ∀ t ∈ result, t.ref? = none) (hp : Plain cs)
    (h₀ : Keeps cs cs₀) (h : openFrame s.types construct ⟨[], result.toList⟩ cs₀ = .ok cs') :
    Plain cs' ∧ cs'.length ≤ cs.length + 1 := by
  obtain ⟨cs₁, h₁, rfl⟩ := openFrame_eq_ok h
  have hk := h₀.trans h₁
  have hresult : AllPlain result.toList := fun t ht => hr t (Option.mem_toList.1 ht)
  refine ⟨plain_cons.2 ⟨⟨allPlain_nil, hresult⟩, hk.plain hp⟩, ?_⟩
  exact Nat.le_of_eq (congrArg (· + 1) hk.length)

/-- What a closed frame leaves is plain, in the frame around it. -/
theorem follows_of_leave {c : Control} {cs cs₁ cs' : Controls} (hp : Plain cs₁)
    (hlength : cs₁.length + 1 = cs.length) (h : leave c.arrow.results cs₁ = .ok cs') :
    Plain cs' ∧ cs'.length ≤ cs.length + 1 := by
  have hl := keeps_leave h
  have hlength' := hl.length
  exact ⟨hl.plain hp, by omega⟩

/-- Behind an operator the frames are still plain, and at most one more is open. -/
theorem plain_stepBasic {s : Scope} {cs cs' : Controls} {op : Operator} (ho : op.IsPlain)
    (hp : Plain cs) (h : stepBasic s cs op = .ok cs') :
    Plain cs' ∧ cs'.length ≤ cs.length + 1 := by
  cases op with
  | constI32 | constF64 => exact (keeps_push h).follows hp
  | localGet index =>
    obtain ⟨t, -, h⟩ := bind_eq_ok_iff.1 h
    split at h
    · exact (keeps_push h).follows hp
    · cases h
  | numeric op =>
    obtain ⟨cs₁, h₁, h⟩ := bind_eq_ok_iff.1 h
    obtain ⟨cs₂, h₂, h⟩ := bind_eq_ok_iff.1 h
    have hpops := (keeps_pop h₁).trans (keeps_pop h₂)
    exact (hpops.trans (keeps_push h)).follows hp
  | drop =>
    obtain ⟨⟨o, cs₁⟩, h₁, h⟩ := bind_eq_ok_iff.1 h
    cases h
    exact (keeps_popOperand h₁).follows hp
  | block result =>
    rw [stepBasic_block_eq s cs ho] at h
    exact follows_of_openFrame ho hp (.refl cs) h
  | cond result =>
    rw [stepBasic_cond_eq s cs ho] at h
    obtain ⟨cs₁, h₁, h⟩ := bind_eq_ok_iff.1 h
    exact follows_of_openFrame ho hp (keeps_pop h₁) h
  | alternative =>
    obtain ⟨⟨c, cs₁⟩, h₁, h⟩ := bind_eq_ok_iff.1 h
    have hk := keeps_close h₁
    obtain ⟨hc, hcs₁⟩ := plain_cons.1 (hk.plain hp)
    dsimp only at h
    split at h
    · cases h
      refine ⟨plain_cons.2 ⟨hc, hcs₁⟩, ?_⟩
      exact Nat.le_succ_of_le (Nat.le_of_eq hk.length)
    · cases h
  | finish =>
    obtain ⟨⟨c, cs₁⟩, h₁, h⟩ := bind_eq_ok_iff.1 h
    have hk := keeps_close h₁
    obtain ⟨hc, hcs₁⟩ := plain_cons.1 (hk.plain hp)
    dsimp only at h
    split at h
    · obtain ⟨⟨c₂, cs₂⟩, h₂, h⟩ := bind_eq_ok_iff.1 h
      have hk₂ := keeps_close h₂
      have hopened : Plain (.opened .alternative c.arrow :: cs₁) :=
        plain_cons.2 ⟨hc, hcs₁⟩
      obtain ⟨-, hcs₂⟩ := plain_cons.1 (hk₂.plain hopened)
      exact follows_of_leave hcs₂ (hk₂.length.trans hk.length) h
    · exact follows_of_leave hcs₁ hk.length h
  | branch depth =>
    obtain ⟨label, -, h⟩ := bind_eq_ok_iff.1 h
    obtain ⟨cs₁, h₁, h⟩ := bind_eq_ok_iff.1 h
    cases h
    exact ((keeps_popAll h₁).trans (keeps_becomeUnreachable cs₁)).follows hp

/-- An operator that passes may stand where it does. -/
theorem checkNesting_of_stepBasic {s : Scope} {c : Control} {cs cs' : Controls} {op : Operator}
    (h : stepBasic s (c :: cs) op = .ok cs') :
    checkNesting (c.construct = .cond) (.basic op) = .ok () := by
  cases op with
  | alternative =>
    obtain ⟨⟨c₁, cs₁⟩, h₁, h⟩ := bind_eq_ok_iff.1 h
    have hc : c₁.construct = c.construct := Option.some_inj.1 (keeps_close h₁).construct
    dsimp only at h
    split at h
    · next hcond => simp [checkNesting, ← hc, hcond]
    · cases h
  | _ => rfl

/-- There is no operator behind the end of a body. -/
theorem ne_nil_of_stepBasic {s : Scope} {cs cs' : Controls} {op : Operator}
    (h : stepBasic s cs op = .ok cs') : cs ≠ [] := by
  rintro rfl
  cases op with
  | localGet index =>
    obtain ⟨t, -, h⟩ := bind_eq_ok_iff.1 h
    split at h <;> cases h
  | block result =>
    obtain ⟨arrow, -, h⟩ := bind_eq_ok_iff.1 h
    exact ne_nil_of_openFrame h rfl
  | cond result =>
    obtain ⟨arrow, -, h⟩ := bind_eq_ok_iff.1 h
    cases h
  | _ => cases h

/-- A branch goes to a frame that is open. -/
theorem lt_length_of_branch {s : Scope} {cs cs' : Controls} {depth : Nat}
    (h : stepBasic s cs (.branch depth) = .ok cs') : depth < cs.length := by
  obtain ⟨label, hl, -⟩ := bind_eq_ok_iff.1 h
  obtain ⟨c, hc, -⟩ := labelAt_eq_ok_iff.1 hl
  exact (List.getElem?_eq_some_iff.1 hc).1

/-- The types and everything else that a module defines are of no concern. -/
theorem stepBasic_congr {s s' : Scope} {cs : Controls} (hp : Plain cs) (hl : s.locals = s'.locals)
    (hn : s.params = s'.params) {op : Operator} (ho : op.IsPlain) :
    stepBasic s cs op = stepBasic s' cs op := by
  cases op with
  | constI32 | constF64 | drop => rfl
  | localGet index =>
    simp only [stepBasic, Scope.slot, hl, hn]
  | numeric op =>
    have ht : op.valType.ref? = none := MachineType.ref?_of_valType? op.valType?_type
    simp only [stepBasic, pop_congr s.types s'.types ht]
  | block result =>
    rw [stepBasic_block_eq s cs ho, stepBasic_block_eq s' cs ho]
    exact openFrame_congr s.types s'.types .block allPlain_nil
  | cond result =>
    rw [stepBasic_cond_eq s cs ho, stepBasic_cond_eq s' cs ho, pop_congr s.types s'.types rfl]
    exact bind_congr_of_ok fun cs₁ _ => openFrame_congr s.types s'.types .cond allPlain_nil
  | alternative =>
    simp only [stepBasic]
    rw [close_congr s.types s'.types hp]
  | finish =>
    simp only [stepBasic]
    rw [close_congr s.types s'.types hp]
    apply bind_congr_of_ok
    intro closed h₁
    obtain ⟨c, cs₁⟩ := closed
    obtain ⟨hc, hcs₁⟩ := plain_cons.1 ((keeps_close h₁).plain hp)
    have hopened : Plain (.opened .alternative c.arrow :: cs₁) :=
      plain_cons.2 ⟨hc, hcs₁⟩
    simp only [close_congr s.types s'.types hopened]
  | branch depth => exact branch_congr s.types s'.types hp depth

theorem stepsBasic_congr {s s' : Scope} {cs : Controls} (hp : Plain cs)
    (hl : s.locals = s'.locals) (hn : s.params = s'.params) {ops : List Operator}
    (ho : ∀ op ∈ ops, op.IsPlain) : stepsBasic s cs ops = stepsBasic s' cs ops := by
  induction ops generalizing cs with
  | nil => rfl
  | cons op ops ih =>
    have hop := ho op List.mem_cons_self
    rw [stepsBasic_cons, stepsBasic_cons, ← stepBasic_congr hp hl hn hop]
    exact bind_congr_of_ok fun cs₁ h₁ => ih (plain_stepBasic hop hp h₁).1 fun op h =>
      ho op (List.mem_cons_of_mem _ h)

end Validation

end Wasm

end TreeWasm
