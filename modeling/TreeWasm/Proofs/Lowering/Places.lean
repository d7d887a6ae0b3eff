-- SUMMARY: Where the code of a part of a tree stands in the code of the tree.
import TreeWasm.Proofs.Lowering.OuterFrames
import TreeWasm.Proofs.Lowering.Targets

/-!
# Places of code

The operators that are written for a part of a tree, and for what is below it, stand together in the
code of the tree, and nothing else in that code is written for them (`Instruction.standsIn_at?`).
-/

namespace TreeWasm

open Wasm

/-! ## Code inside other code -/

namespace Placed

/-- No operator of the code is written for an instruction at the address or below it. -/
def Outside (here : Address) (code : List Placed) : Prop := ∀ x ∈ code, ¬ here <:+ x.origin

/-- All operators of the code are written for instructions at the address or below it. -/
def Below (here : Address) (code : List Placed) : Prop := ∀ x ∈ code, here <:+ x.origin

/-- The code stands in other code, all the rest of which is outside the address. -/
def StandsIn (here : Address) (code whole : List Placed) : Prop :=
  ∃ before after, whole = before ++ (code ++ after) ∧ Outside here (before ++ after)

variable {here : Address} {p q : Part} {code code' whole : List Placed}

theorem outside_append :
    Outside here (code ++ code') ↔ Outside here code ∧ Outside here code' :=
  List.forall_mem_append

theorem outside_nil (here : Address) : Outside here [] := nofun

/-- What is written for an instruction itself is not written for a part of it. -/
theorem outside_cons_own {op : Operator} :
    Outside (p :: here) (⟨here, op⟩ :: code) ↔ Outside (p :: here) code := by
  refine List.forall_mem_cons.trans (and_iff_right fun hsuffix => ?_)
  have hle : (p :: here).length ≤ here.length := hsuffix.length_le
  exact Nat.not_succ_le_self _ hle

theorem outside_own (here : Address) (p : Part) (op : Operator) :
    Outside (p :: here) [⟨here, op⟩] := outside_cons_own.2 (outside_nil _)

/-- Nothing is below two different parts. -/
theorem Below.outside (h : Below (q :: here) code) (hne : p ≠ q) : Outside (p :: here) code := by
  intro x hx hsuffix
  have hsuffix' : p :: here <:+ q :: here :=
    List.suffix_of_suffix_length_le hsuffix (h x hx) (Nat.le_refl _)
  exact hne (List.cons.inj (hsuffix'.eq_of_length rfl)).1

theorem Outside.part (h : Outside here code) (p : Part) : Outside (p :: here) code :=
  fun x hx hsuffix => h x hx ((List.suffix_cons p here).trans hsuffix)

namespace StandsIn

theorem refl (here : Address) (code : List Placed) : StandsIn here code code :=
  ⟨[], [], by rw [List.append_nil, List.nil_append], outside_nil here⟩

theorem behind (h : StandsIn here code whole) (hout : Outside here code') :
    StandsIn here code (code' ++ whole) := by
  obtain ⟨before, after, rfl, hrest⟩ := h
  refine ⟨code' ++ before, after, List.append_assoc .. |>.symm, ?_⟩
  rw [List.append_assoc]
  exact outside_append.2 ⟨hout, hrest⟩

theorem before (h : StandsIn here code whole) (hout : Outside here code') :
    StandsIn here code (whole ++ code') := by
  obtain ⟨before, after, rfl, hrest⟩ := h
  refine ⟨before, after ++ code', by simp only [List.append_assoc], ?_⟩
  rw [← List.append_assoc]
  exact outside_append.2 ⟨hrest, hout⟩

/-- What is written for an instruction itself in front of the code of one of its parts. -/
theorem behind_own {op : Operator} (h : StandsIn (p :: here) code whole) :
    StandsIn (p :: here) code (⟨here, op⟩ :: whole) :=
  h.behind (outside_own here p op)

/-- The code of a part of a part. -/
theorem trans {inner : List Placed} (h : StandsIn here code whole)
    (h' : StandsIn (p :: here) inner code) : StandsIn (p :: here) inner whole := by
  obtain ⟨before, after, rfl, hrest⟩ := h
  obtain ⟨hbefore, hafter⟩ := outside_append.1 (Outside.part hrest p)
  exact (h'.before hafter).behind hbefore

end StandsIn

end Placed

namespace Instruction

open Placed

/-! ## Code of parts -/

/-- The operators of the node of an instruction at an address, each with the address of the
instruction that it is written for. -/
def placedAt (here : Address) (i : Instruction) (n : Node) : List Placed :=
  List.zipWith Placed.mk (i.origins here) n.operators

/-- The same for the children of a block, from the child with the given index on. -/
def placedAllAt (here : Address) (index : Nat) (is : List Instruction) (ns : List Node) :
    List Placed :=
  List.zipWith Placed.mk (originsAll here index is) (Node.operatorsAll ns)

mutual

/-- What is written for a tree is written for its instructions. -/
theorem suffix_of_mem_origins (i : Instruction) {here place : Address}
    (h : place ∈ i.origins here) : here <:+ place := by
  cases i with
  | constInt32 | constFloat64 | constBool | localGet | breakTo =>
    obtain rfl := List.mem_singleton.1 h
    exact List.suffix_refl place
  | block label type children =>
    simp only [origins, List.mem_cons, List.mem_append, List.not_mem_nil, or_false] at h
    rcases h with rfl | h | rfl
    · exact List.suffix_refl place
    · exact suffix_of_mem_originsAll children h
    · exact List.suffix_refl place
  | binaryOp op type lhs rhs =>
    simp only [origins, List.mem_append, List.mem_singleton] at h
    rcases h with h | h | rfl
    · exact (List.suffix_cons _ _).trans (suffix_of_mem_origins lhs h)
    · exact (List.suffix_cons _ _).trans (suffix_of_mem_origins rhs h)
    · exact List.suffix_refl place
  | breakWith label value =>
    simp only [origins, List.mem_append, List.mem_singleton] at h
    rcases h with h | rfl
    · exact (List.suffix_cons _ _).trans (suffix_of_mem_origins value h)
    · exact List.suffix_refl place
  | ifThen condition thenBody =>
    simp only [origins, List.mem_append, List.mem_cons, List.mem_ite_nil_left, List.not_mem_nil,
      or_false] at h
    rcases h with h | rfl | h | ⟨-, rfl⟩ | rfl
    · exact (List.suffix_cons _ _).trans (suffix_of_mem_origins condition h)
    · exact List.suffix_refl place
    · exact (List.suffix_cons _ _).trans (suffix_of_mem_origins thenBody h)
    · exact List.suffix_refl place
    · exact List.suffix_refl place
  | ifElse condition thenBody elseBody =>
    simp only [origins, List.mem_append, List.mem_cons, List.not_mem_nil, or_false] at h
    rcases h with h | rfl | h | rfl | h | rfl
    · exact (List.suffix_cons _ _).trans (suffix_of_mem_origins condition h)
    · exact List.suffix_refl place
    · exact (List.suffix_cons _ _).trans (suffix_of_mem_origins thenBody h)
    · exact List.suffix_refl place
    · exact (List.suffix_cons _ _).trans (suffix_of_mem_origins elseBody h)
    · exact List.suffix_refl place
  | storeLocal | propertyAccess | propertyAssignment | containerAlloc | stackAlloc | stackFree =>
    cases h

theorem suffix_of_mem_originsAll (is : List Instruction) {here place : Address} {index : Nat}
    (h : place ∈ originsAll here index is) : here <:+ place := by
  cases is with
  | nil => cases h
  | cons i is =>
    rcases List.mem_append.1 h with h | h
    · exact (List.suffix_cons _ _).trans (suffix_of_mem_origins i h)
    · exact suffix_of_mem_originsAll is h

end

mutual

/-- There is one origin for each operator. -/
theorem length_origins (i : Instruction) {frames : FrameStack} {n : Node} (here : Address)
    (h : i.lowerIn frames = .ok n) : (i.origins here).length = n.operators.length := by
  cases i with
  | constInt32 | constFloat64 | constBool =>
    cases h
    rfl
  | localGet =>
    obtain ⟨m, -, rfl⟩ := lowerIn_localGet_iff.1 h
    rfl
  | block label type children =>
    obtain ⟨m, -, ns, hns, rfl⟩ := lowerIn_block_iff.1 h
    simp [origins, Node.operators_block, length_originsAll children here 0 hns]
  | binaryOp op type lhs rhs =>
    obtain ⟨l, hl, r, hr, m, -, rfl⟩ := lowerIn_binaryOp_iff.1 h
    simp [origins, Node.operators_binary, length_origins lhs _ hl, length_origins rhs _ hr]
  | breakTo label =>
    obtain ⟨d, -, rfl⟩ := lowerIn_breakTo_iff.1 h
    rfl
  | breakWith label value =>
    obtain ⟨v, hv, d, -, rfl⟩ := lowerIn_breakWith_iff.1 h
    simp [origins, Node.operators_breakWith, length_origins value _ hv]
  | ifThen condition thenBody =>
    obtain ⟨c, hc, -, t, ht, rfl⟩ := lowerIn_ifThen_iff.1 h
    simp only [origins, Node.operators_ifThen, Lowering.operators_discard,
      thenBody.type_of_lowerIn ht, List.length_append, List.length_cons,
      length_origins condition _ hc, length_origins thenBody _ ht]
    split <;> rfl
  | ifElse condition thenBody elseBody =>
    obtain ⟨c, hc, -, t, ht, e, he, rfl⟩ := lowerIn_ifElse_iff.1 h
    simp [origins, Node.operators_ifElse, length_origins condition _ hc,
      length_origins thenBody _ ht, length_origins elseBody _ he]
  | storeLocal | propertyAccess | propertyAssignment | containerAlloc | stackAlloc | stackFree =>
    cases h

theorem length_originsAll (is : List Instruction) {frames : FrameStack} {ns : List Node}
    (here : Address) (index : Nat) (h : lowerAllIn frames is = .ok ns) :
    (originsAll here index is).length = (Node.operatorsAll ns).length := by
  cases is with
  | nil =>
    cases h
    rfl
  | cons i is =>
    obtain ⟨n, hn, ns', hns, rfl⟩ := lowerAllIn_cons_iff.1 h
    simp [originsAll, Node.operatorsAll_cons, length_origins i _ hn,
      length_originsAll is here (index + 1) hns]

end

section

variable {frames : FrameStack} {here : Address}

theorem origins_placedAt {i : Instruction} {n : Node} (h : i.lowerIn frames = .ok n) :
    (i.placedAt here n).map Placed.origin = i.origins here := by
  unfold placedAt
  rw [List.map_zipWith]
  exact List.map_zip_eq_zipWith.symm.trans
    (List.map_fst_zip (Nat.le_of_eq (i.length_origins here h)))

theorem operators_placedAt {i : Instruction} {n : Node} (h : i.lowerIn frames = .ok n) :
    (i.placedAt here n).map Placed.operator = n.operators := by
  unfold placedAt
  rw [List.map_zipWith]
  exact List.map_zip_eq_zipWith.symm.trans
    (List.map_snd_zip (Nat.le_of_eq (i.length_origins here h).symm))

/-- What is written for a part is outside any other part. -/
theorem outside_placedAt {i : Instruction} {n : Node} {p q : Part}
    (h : i.lowerIn frames = .ok n) (hne : p ≠ q) :
    Outside (p :: here) (i.placedAt (q :: here) n) := by
  refine Below.outside ?_ hne
  intro x hx
  have hmem := List.mem_map_of_mem (f := Placed.origin) hx
  rw [origins_placedAt h] at hmem
  exact i.suffix_of_mem_origins hmem

theorem placedAt_binaryOp {lhs rhs : Instruction} {l r : Node} (op : Arith) (type : ValueType)
    (m : MachineOp) (hl : lhs.lowerIn frames = .ok l) (hr : rhs.lowerIn frames = .ok r) :
    (binaryOp op type lhs rhs).placedAt here (.binary m l r) =
      lhs.placedAt (.lhs :: here) l ++ (rhs.placedAt (.rhs :: here) r ++
        [⟨here, .numeric m⟩]) := by
  unfold placedAt
  rw [Node.operators_binary, origins, List.zipWith_append (lhs.length_origins _ hl),
    List.zipWith_append (rhs.length_origins _ hr)]
  rfl

theorem placedAt_breakWith {value : Instruction} {v : Node} (label : String) (depth : Nat)
    (hv : value.lowerIn frames = .ok v) :
    (breakWith label value).placedAt here (.breakWith label depth v) =
      value.placedAt (.value :: here) v ++ [⟨here, .branch depth⟩] := by
  unfold placedAt
  rw [Node.operators_breakWith, origins, List.zipWith_append (value.length_origins _ hv)]
  rfl

theorem placedAt_block {children : List Instruction} {ns : List Node} (label : String)
    (type : ValueType) (m : MachineType) (hns : lowerAllIn frames children = .ok ns) :
    (block label type children).placedAt here (.block label m ns) =
      [⟨here, .block m.valType?⟩] ++ (placedAllAt here 0 children ns ++ [⟨here, .finish⟩]) := by
  unfold placedAt placedAllAt
  rw [Node.operators_block, origins, List.zipWith_cons_cons,
    List.zipWith_append (length_originsAll children here 0 hns)]
  rfl

theorem placedAllAt_cons {i : Instruction} {is : List Instruction} {n : Node} {ns : List Node}
    (index : Nat) (hn : i.lowerIn frames = .ok n) :
    placedAllAt here index (i :: is) (n :: ns) =
      i.placedAt (.child index :: here) n ++ placedAllAt here (index + 1) is ns := by
  unfold placedAllAt placedAt
  rw [Node.operatorsAll_cons, originsAll, List.zipWith_append (i.length_origins _ hn)]

/-- What an if without an alternative writes for itself behind its body. -/
def closing (here : Address) (thenBody : Instruction) : List Placed :=
  (if thenBody.machineType = .unreachable then [] else [⟨here, .drop⟩]) ++ [⟨here, .finish⟩]

theorem outside_closing (p : Part) (thenBody : Instruction) :
    Outside (p :: here) (closing here thenBody) := by
  unfold closing
  split <;> simp [outside_cons_own, outside_nil]

theorem placedAt_ifThen {condition thenBody : Instruction} {c t : Node} (type : MachineType)
    (hc : condition.lowerIn frames = .ok c) (ht : thenBody.lowerIn (frames.enter .cond) = .ok t) :
    (ifThen condition thenBody).placedAt here (.ifThen type c (Lowering.discard t)) =
      condition.placedAt (.condition :: here) c ++ ⟨here, .cond type.valType?⟩ ::
        (thenBody.placedAt (.thenBody :: here) t ++ closing here thenBody) := by
  unfold placedAt closing
  rw [Node.operators_ifThen, Lowering.operators_discard, thenBody.type_of_lowerIn ht, origins,
    List.zipWith_append (condition.length_origins _ hc), List.zipWith_cons_cons, List.append_assoc,
    List.zipWith_append (thenBody.length_origins _ ht)]
  split <;> rfl

theorem placedAt_ifElse {condition thenBody elseBody : Instruction} {c t e : Node}
    (type : MachineType) (hc : condition.lowerIn frames = .ok c)
    (ht : thenBody.lowerIn (frames.enter .cond) = .ok t)
    (he : elseBody.lowerIn (frames.enter .cond) = .ok e) :
    (ifElse condition thenBody elseBody).placedAt here (.ifElse type c t e) =
      condition.placedAt (.condition :: here) c ++ ⟨here, .cond type.valType?⟩ ::
        (thenBody.placedAt (.thenBody :: here) t ++ ⟨here, .alternative⟩ ::
          (elseBody.placedAt (.elseBody :: here) e ++ [⟨here, .finish⟩])) := by
  unfold placedAt
  rw [Node.operators_ifElse, origins, List.zipWith_append (condition.length_origins _ hc),
    List.zipWith_cons_cons, List.zipWith_append (thenBody.length_origins _ ht),
    List.zipWith_cons_cons, List.zipWith_append (elseBody.length_origins _ he)]
  rfl

/-- What is written for later children is not written for an earlier one. -/
theorem outside_placedAllAt (is : List Instruction) {ns : List Node} {earlier index : Nat}
    (hlt : earlier < index) (h : lowerAllIn frames is = .ok ns) :
    Outside (.child earlier :: here) (placedAllAt here index is ns) := by
  induction is generalizing ns index with
  | nil =>
    cases h
    exact outside_nil _
  | cons i is ih =>
    obtain ⟨n, hn, ns', hns, rfl⟩ := lowerAllIn_cons_iff.1 h
    have hne : Part.child earlier ≠ .child index := fun heq => Nat.ne_of_lt hlt (by cases heq; rfl)
    rw [placedAllAt_cons index hn]
    exact outside_append.2 ⟨outside_placedAt hn hne, ih (Nat.lt_succ_of_lt hlt) hns⟩

theorem standsIn_child (here : Address) (is : List Instruction) {ns : List Node} {k : Instruction}
    {offset : Nat} (index : Nat) (h : lowerAllIn frames is = .ok ns) (hk : is[offset]? = some k) :
    ∃ n, k.lowerIn frames = .ok n ∧
      StandsIn (.child (index + offset) :: here) (k.placedAt (.child (index + offset) :: here) n)
        (placedAllAt here index is ns) := by
  induction is generalizing ns index offset with
  | nil => cases hk
  | cons i is ih =>
    obtain ⟨n, hn, ns', hns, rfl⟩ := lowerAllIn_cons_iff.1 h
    rw [placedAllAt_cons index hn]
    cases offset with
    | zero =>
      cases hk
      exact ⟨n, hn, (StandsIn.refl _ _).before (outside_placedAllAt is (Nat.lt_succ_self _) hns)⟩
    | succ offset =>
      obtain ⟨m, hm, hin⟩ := ih (index + 1) hns hk
      rw [Nat.add_right_comm] at hin
      have hne : Part.child (index + (offset + 1)) ≠ .child index := by
        simp
      exact ⟨m, hm, hin.behind (outside_placedAt hn hne)⟩

/-- The code of a part of an instruction stands in the code of the instruction. -/
theorem standsIn_part (here : Address) {i k : Instruction} {p : Part} {n : Node}
    (hk : i.part? p = some k) (h : i.lowerIn frames = .ok n) :
    ∃ inner m, k.lowerIn inner = .ok m ∧
      StandsIn (p :: here) (k.placedAt (p :: here) m) (i.placedAt here n) := by
  cases i with
  | constInt32 | constFloat64 | constBool | localGet | breakTo => cases p <;> cases hk
  | block label type children =>
    obtain ⟨m, -, ns, hns, rfl⟩ := lowerIn_block_iff.1 h
    cases p with
    | child index =>
      obtain ⟨m', hm', hin⟩ := standsIn_child here children 0 hns hk
      rw [Nat.zero_add] at hin
      rw [placedAt_block label type m hns]
      exact ⟨_, m', hm', (hin.before (outside_own _ _ _)).behind (outside_own _ _ _)⟩
    | _ => cases hk
  | binaryOp op type lhs rhs =>
    obtain ⟨l, hl, r, hr, m, -, rfl⟩ := lowerIn_binaryOp_iff.1 h
    rw [placedAt_binaryOp op type m hl hr]
    cases p with
    | lhs =>
      cases hk
      refine ⟨frames, l, hl, (StandsIn.refl _ _).before ?_⟩
      exact outside_append.2 ⟨outside_placedAt hr nofun, outside_own _ _ _⟩
    | rhs =>
      cases hk
      refine ⟨frames, r, hr, StandsIn.behind ?_ (outside_placedAt hl nofun)⟩
      exact (StandsIn.refl _ _).before (outside_own _ _ _)
    | _ => cases hk
  | breakWith label value =>
    obtain ⟨v, hv, d, -, rfl⟩ := lowerIn_breakWith_iff.1 h
    rw [placedAt_breakWith label d hv]
    cases p with
    | value =>
      cases hk
      exact ⟨frames, v, hv, (StandsIn.refl _ _).before (outside_own _ _ _)⟩
    | _ => cases hk
  | ifThen condition thenBody =>
    obtain ⟨c, hc, -, t, ht, rfl⟩ := lowerIn_ifThen_iff.1 h
    rw [placedAt_ifThen .unreachable hc ht]
    cases p with
    | condition =>
      cases hk
      refine ⟨frames, c, hc, (StandsIn.refl _ _).before (outside_cons_own.2 ?_)⟩
      exact outside_append.2 ⟨outside_placedAt ht nofun, outside_closing _ thenBody⟩
    | thenBody =>
      cases hk
      refine ⟨_, t, ht, StandsIn.behind ?_ (outside_placedAt hc nofun)⟩
      exact ((StandsIn.refl _ _).before (outside_closing _ _)).behind_own
    | _ => cases hk
  | ifElse condition thenBody elseBody =>
    obtain ⟨c, hc, -, t, ht, e, he, rfl⟩ := lowerIn_ifElse_iff.1 h
    rw [placedAt_ifElse (Lowering.joinType t.type e.type) hc ht he]
    cases p with
    | condition =>
      cases hk
      refine ⟨frames, c, hc, (StandsIn.refl _ _).before (outside_cons_own.2 ?_)⟩
      refine outside_append.2 ⟨outside_placedAt ht nofun, outside_cons_own.2 ?_⟩
      exact outside_append.2 ⟨outside_placedAt he nofun, outside_own _ _ _⟩
    | thenBody =>
      cases hk
      refine ⟨_, t, ht, StandsIn.behind (StandsIn.behind_own ?_) (outside_placedAt hc nofun)⟩
      refine (StandsIn.refl _ _).before (outside_cons_own.2 ?_)
      exact outside_append.2 ⟨outside_placedAt he nofun, outside_own _ _ _⟩
    | elseBody =>
      cases hk
      refine ⟨_, e, he, StandsIn.behind (StandsIn.behind_own ?_) (outside_placedAt hc nofun)⟩
      refine StandsIn.behind (StandsIn.behind_own ?_) (outside_placedAt ht nofun)
      exact (StandsIn.refl _ _).before (outside_own _ _ _)
    | _ => cases hk
  | storeLocal | propertyAccess | propertyAssignment | containerAlloc | stackAlloc | stackFree =>
    cases h

end

/-- The code of an instruction anywhere in an accepted tree stands in the code of the tree. -/
theorem standsIn_at? {root : Instruction} {whole : Node} (h : root.lowerRoot = .ok whole)
    {here : Address} {i : Instruction} (hi : root.at? here = some i) :
    ∃ frames n, i.lowerIn frames = .ok n ∧
      StandsIn here (i.placedAt here n) (root.placed whole) := by
  induction here generalizing i with
  | nil =>
    cases hi
    exact ⟨{}, whole, h, StandsIn.refl _ _⟩
  | cons p here ih =>
    obtain ⟨outer, houter, hpart⟩ := Option.bind_eq_some_iff.1 hi
    obtain ⟨frames, n, hn, hin⟩ := ih houter
    obtain ⟨inner, m, hm, hin'⟩ := standsIn_part here hpart hn
    exact ⟨inner, m, hm, hin.trans hin'⟩

end Instruction

end TreeWasm
