-- SUMMARY: Runs of local slots: they are the only canonical and the shortest ones, and every index keeps its slot.
import Mathlib.Data.List.Chain
import TreeWasm.Proofs.Assembly.Atomicity
import TreeWasm.Proofs.Binary.Registry

/-!
# Runs of local slots

Runs are canonical for a list of slots if they stand for it, none of them is empty, and neighbours
are of different types (`LocalRun.Canonical`). A slot in front makes canonical runs of canonical
runs, and nothing else does (`Canonical.prepend`, `Canonical.exists_prepend`), so that `group` gives
the only ones there are. No runs that stand for the slots are fewer.

In the binary of a function that is assembled, the slots behind an index are therefore those that
the function declares (`group_keeps_slots`).
-/

namespace TreeWasm

open Wasm

namespace Wasm.LocalRun

/-- The runs stand for the slots, none of them is empty, and neighbours are of different types. -/
structure Canonical (types : List ValType) (runs : List LocalRun) : Prop where
  expand : expand runs = types
  count_pos : ∀ run ∈ runs, 1 ≤ run.count
  types_ne : runs.IsChain fun run next => run.type ≠ next.type

theorem expand_append (runs more : List LocalRun) :
    expand (runs ++ more) = expand runs ++ expand more := List.flatMap_append

theorem expand_cons (run : LocalRun) (runs : List LocalRun) :
    expand (run :: runs) = List.replicate run.count run.type ++ expand runs := List.flatMap_cons

theorem group_cons (type : ValType) (types : List ValType) :
    group (type :: types) = prepend type (group types) := rfl

/-! ## One slot in front -/

theorem prepend_cons_self (count : Nat) (type : ValType) (runs : List LocalRun) :
    prepend type (⟨count, type⟩ :: runs) = ⟨count + 1, type⟩ :: runs := if_pos rfl

theorem prepend_of_ne {type : ValType} {runs : List LocalRun}
    (h : ∀ run ∈ runs.head?, run.type ≠ type) : prepend type runs = ⟨1, type⟩ :: runs := by
  cases runs with
  | nil => rfl
  | cons run runs => exact if_neg (h run rfl)

/-- A slot in front belongs to the first run or starts a new one. -/
theorem Canonical.prepend {types : List ValType} {runs : List LocalRun} (h : Canonical types runs)
    (type : ValType) : Canonical (type :: types) (prepend type runs) where
  expand := by rw [expand_prepend, h.expand]
  count_pos := by
    cases runs with
    | nil => exact List.forall_mem_singleton.2 (Nat.le_refl 1)
    | cons run runs =>
      obtain ⟨hrun, hruns⟩ := List.forall_mem_cons.1 h.count_pos
      by_cases ht : run.type = type
      · obtain rfl := ht
        rw [prepend_cons_self]
        exact List.forall_mem_cons.2 ⟨Nat.le_add_left 1 _, hruns⟩
      · rw [prepend_of_ne (by simpa using ht)]
        exact List.forall_mem_cons.2 ⟨Nat.le_refl 1, h.count_pos⟩
  types_ne := by
    cases runs with
    | nil => exact .singleton _
    | cons run runs =>
      by_cases ht : run.type = type
      · obtain rfl := ht
        rw [prepend_cons_self, List.isChain_cons]
        exact List.isChain_cons.1 h.types_ne
      · rw [prepend_of_ne (by simpa using ht)]
        exact h.types_ne.cons_cons (Ne.symm ht)

/-- Canonical runs have come about by putting their first slot in front. -/
theorem Canonical.exists_prepend {type : ValType} {types : List ValType} {runs : List LocalRun}
    (h : Canonical (type :: types) runs) :
    ∃ before, Canonical types before ∧ runs = LocalRun.prepend type before := by
  cases runs with
  | nil => cases h.expand
  | cons run runs =>
    obtain ⟨hrun, hruns⟩ := List.forall_mem_cons.1 h.count_pos
    obtain ⟨hnext, hchain⟩ := List.isChain_cons.1 h.types_ne
    obtain ⟨count, t⟩ := run
    obtain ⟨n, rfl⟩ : ∃ n, count = n + 1 := ⟨count - 1, (Nat.sub_add_cancel hrun).symm⟩
    have hslots : t :: (List.replicate n t ++ LocalRun.expand runs) = type :: types := by
      rw [← h.expand, expand_cons, List.replicate_succ]
      rfl
    obtain ⟨rfl, hrest⟩ := List.cons.inj hslots
    cases n with
    | zero =>
      refine ⟨runs, ⟨hrest, hruns, hchain⟩, ?_⟩
      rw [prepend_of_ne fun next hn => (hnext next hn).symm]
    | succ n =>
      refine ⟨⟨n + 1, t⟩ :: runs, ⟨hrest, ?_, List.isChain_cons.2 ⟨hnext, hchain⟩⟩, ?_⟩
      · exact List.forall_mem_cons.2 ⟨Nat.le_add_left 1 n, hruns⟩
      · rw [prepend_cons_self]

/-! ## All slots -/

theorem canonical_group (types : List ValType) : Canonical types (group types) := by
  induction types with
  | nil => exact ⟨rfl, nofun, .nil⟩
  | cons t ts ih => exact ih.prepend t

/-- There are no other canonical runs. -/
theorem Canonical.eq_group {types : List ValType} {runs : List LocalRun}
    (h : Canonical types runs) : runs = group types := by
  induction types generalizing runs with
  | nil =>
    cases runs with
    | nil => rfl
    | cons run runs =>
      have hpos := h.count_pos run List.mem_cons_self
      have hnone := (List.append_eq_nil_iff.1 h.expand).1
      rw [List.replicate_eq_nil_iff] at hnone
      omega
  | cons t ts ih =>
    obtain ⟨before, hbefore, rfl⟩ := h.exists_prepend
    rw [ih hbefore, group_cons]

/-- Slots of one type take at most one more run. -/
theorem length_group_replicate_append_le (n : Nat) (type : ValType) (types : List ValType) :
    (group (List.replicate n type ++ types)).length ≤ (group types).length + 1 := by
  have hmore (n : Nat) : ∃ count runs,
      group (List.replicate (n + 1) type ++ types) = ⟨count, type⟩ :: runs ∧
        runs.length ≤ (group types).length := by
    induction n with
    | zero =>
      show ∃ count runs, LocalRun.prepend type (group types) = _ ∧ _
      cases hgroup : group types with
      | nil => exact ⟨1, [], rfl, Nat.le_refl 0⟩
      | cons run runs =>
        by_cases ht : run.type = type
        · obtain rfl := ht
          exact ⟨_, _, prepend_cons_self _ _ runs, Nat.le_succ _⟩
        · exact ⟨_, _, prepend_of_ne (by simpa using ht), Nat.le_refl _⟩
    | succ n ih =>
      obtain ⟨count, runs, hgroup, hle⟩ := ih
      refine ⟨count + 1, runs, ?_, hle⟩
      rw [List.replicate_succ, List.cons_append, group_cons, hgroup, prepend_cons_self]
  cases n with
  | zero => exact Nat.le_succ _
  | succ n =>
    obtain ⟨count, runs, hgroup, hle⟩ := hmore n
    rw [hgroup]
    exact Nat.succ_le_succ hle

/-- No runs that stand for the slots are fewer. -/
theorem length_group_expand_le (runs : List LocalRun) :
    (group (expand runs)).length ≤ runs.length := by
  induction runs with
  | nil => exact Nat.le_refl 0
  | cons run runs ih =>
    rw [expand_cons]
    exact (length_group_replicate_append_le _ _ _).trans (Nat.succ_le_succ ih)

/-- And no others are as few: an empty run could be left out, and neighbours of one type be one. -/
theorem canonical_of_length_le {runs : List LocalRun}
    (h : runs.length ≤ (group (expand runs)).length) : Canonical (expand runs) runs where
  expand := rfl
  count_pos run hrun := by
    obtain ⟨before, behind, rfl⟩ := List.append_of_mem hrun
    by_contra hempty
    have hcount : run.count = 0 := by omega
    have hslots : expand (before ++ run :: behind) = expand (before ++ behind) := by
      rw [expand_append, expand_cons, hcount, expand_append]
      rfl
    have hle := length_group_expand_le (before ++ behind)
    rw [hslots] at h
    simp only [List.length_append, List.length_cons] at h hle
    omega
  types_ne := by
    refine List.isChain_iff_forall_rel_of_append_cons_cons.2 ?_
    rintro run next before behind rfl htype
    have hslots : expand (before ++ run :: next :: behind) =
        expand (before ++ ⟨run.count + next.count, run.type⟩ :: behind) := by
      rw [expand_append, expand_cons, expand_cons, expand_append, expand_cons, ← htype,
        List.replicate_add, List.append_assoc]
    have hle := length_group_expand_le (before ++ ⟨run.count + next.count, run.type⟩ :: behind)
    rw [hslots] at h
    simp only [List.length_append, List.length_cons] at h hle
    omega

theorem length_group_le (types : List ValType) : (group types).length ≤ types.length := by
  have hsingles : expand (types.map (⟨1, ·⟩)) = types := by
    simp [expand, List.flatMap_map]
  have hle := length_group_expand_le (types.map (⟨1, ·⟩))
  rwa [hsingles, List.length_map] at hle

end Wasm.LocalRun

/-! ## Slots of encoded functions -/

/-- The local slots that code declares in front of its operators, one by one. -/
def Wasm.Reader.localSlots : Reader (List ValType) := do
  let runs ← vec localRun
  return runs.flatten

/-- The bytes of a function declare the slots that it was registered with, and its operators follow
them. -/
theorem Registry.localSlots_encode {f : Registered} (h : f.locals.length < UInt32.size) :
    Reader.localSlots ⟨0, (codeOf f).encode⟩ = .ok (f.locals,
      ⟨(encodeVec ((codeOf f).locals.map LocalRun.encode)).length,
        (codeOf f).operators.flatMap Operator.encode⟩) := by
  have hruns : (codeOf f).locals = LocalRun.group f.locals := rfl
  have hlength : (LocalRun.group f.locals).length < UInt32.size :=
    Nat.lt_of_le_of_lt (LocalRun.length_group_le _) h
  have hread : Reads Reader.localSlots (encodeVec ((codeOf f).locals.map LocalRun.encode))
      f.locals := by
    rw [hruns]
    refine (Reads.vec (fun run hrun => Reads.localRun ?_) hlength).map ?_
    · exact Nat.lt_of_le_of_lt (count_le_length_of_mem_group hrun) h
    · have hslots := LocalRun.expand_group f.locals
      rw [LocalRun.expand] at hslots
      rw [← List.flatMap_def, hslots]
      exact .pure _
  rw [Code.encode_eq, hread, Nat.zero_add]

/-- Behind every index that a registered function declares there is a slot of the type that it
declares for it. -/
theorem Registration.Represents.getElem?_slots {g : Registration} {f : Function}
    (h : g.Represents f) {i : Nat} {t : ValueType} (hi : f.slots[i]? = some t) :
    ∃ v, (∀ slot, t.slotType slot = .ok v) ∧ (g.type.params ++ g.locals)[i]? = some v := by
  have hslots : f.slots.map ValueType.valType? = (g.type.params ++ g.locals).map some := by
    rw [Function.slots, List.map_append, List.map_append, h.params, h.locals]
  have hvalue : some t.valType? = (g.type.params ++ g.locals)[i]?.map some := by
    rw [← List.getElem?_map, ← hslots, List.getElem?_map, hi, Option.map_some]
  obtain ⟨v, hv, ht⟩ := Option.map_eq_some_iff.1 hvalue.symm
  exact ⟨v, fun slot => ValueType.slotType_eq_ok_iff.2 ht.symm, hv⟩

/-- The runs of fewer than 2 to the 32 slots are the only ones that stand for the slots, hold at
least one slot each and do not have neighbours of one type; their counts are integers of 32 bits.
Any other runs that stand for the slots are more. So the index space of a function is kept: in the
module it is assembled to, where it is the last function and has the index of its type, the
parameters of this type and the slots that are read off the bytes of its code are as many as the
slots it declares, and each of them is of the type that stands for the declared one. -/
theorem Wasm.LocalRun.group_keeps_slots (types : List ValType) (h : types.length < UInt32.size) :
    LocalRun.expand (LocalRun.group types) = types ∧
    (∀ run ∈ LocalRun.group types, 1 ≤ run.count ∧ run.count < UInt32.size) ∧
    ((LocalRun.group types).IsChain fun run next => run.type ≠ next.type) ∧
    (∀ runs, LocalRun.Canonical types runs → runs = LocalRun.group types) ∧
    (∀ runs, LocalRun.expand runs = types → runs ≠ LocalRun.group types →
      (LocalRun.group types).length < runs.length) ∧
    ∀ (f : Function) (moduleName : String) (r r' : Registry) (index : UInt32), r.Reachable →
      f.locals.length < UInt32.size → (f.assemble moduleName).on r = (.ok index, r') →
      ∃ (g : Registered) (type : FuncType) (slots : List ValType) (behind : Cursor),
        r'.functions[r.functions.size]? = some g ∧ r'.findType? type = some g.typeIndex ∧
        (r.functions.size < UInt32.size → r'.functions[index.toNat]? = some g) ∧
        (r.types.size < UInt32.size → r'.type? g.typeIndex = some type) ∧
        Reader.localSlots ⟨0, (Registry.codeOf g).encode⟩ = .ok (slots, behind) ∧
        (type.params ++ slots).length = (f.params ++ f.locals).length ∧
        ∀ (i : Nat) (t : ValueType), (f.params ++ f.locals)[i]? = some t →
          ∃ v, (∀ slot, t.slotType slot = .ok v) ∧
            (type.params ++ slots)[i]? = some v := by
  have hgroup := LocalRun.canonical_group types
  refine ⟨hgroup.expand, fun run hrun => ⟨hgroup.count_pos run hrun, ?_⟩, hgroup.types_ne,
    fun runs hruns => hruns.eq_group, ?_, ?_⟩
  · exact Nat.lt_of_le_of_lt (Registry.count_le_length_of_mem_group hrun) h
  · rintro runs rfl hne
    refine Nat.lt_of_not_le fun hle => hne ?_
    exact (LocalRun.canonical_of_length_le hle).eq_group
  · intro f moduleName r r' index hr hf hassemble
    obtain ⟨g, hg, rfl, rfl⟩ := Function.on_assemble_eq_ok hassemble
    have hrepresents := Function.represents_of_registration hg
    have hkeeps := hr.consistent.keepsLast_register g
    have hlocals := congrArg List.length hrepresents.locals
    have hparams := congrArg List.length hrepresents.params
    rw [List.length_map, List.length_map] at hlocals hparams
    have hslots := Registry.localSlots_encode
      (f := ⟨g.name, (r.addType g.type).1, g.locals, g.body⟩) (hlocals ▸ hf)
    refine ⟨_, g.type, _, _, hkeeps.last, r.findType?_addType g.type, hkeeps.byIndex,
      hkeeps.signature, hslots, ?_, ?_⟩
    · rw [List.length_append, List.length_append]
      exact congrArg₂ (· + ·) hparams.symm hlocals.symm
    · intro i t hi
      exact hrepresents.getElem?_slots (f := f.qualify moduleName) hi

/-- A function with three runs of slots behind its parameter, the outer two of one type. -/
def scattered : Function where
  name := "scattered"
  params := [.float64]
  returnType := .int32
  locals := [.int32, .bool, .float64, .ptr]
  body := .localGet 4 .int32

/-- Two slots share a run, but the last one does not join them. -/
theorem scattered_keeps_slots :
    [ValType.i32, .i32, .f64, .i32].length < UInt32.size ∧
    LocalRun.group [.i32, .i32, .f64, .i32] = [⟨2, .i32⟩, ⟨1, .f64⟩, ⟨1, .i32⟩] ∧
    (∀ runs, LocalRun.expand runs = [.i32, .i32, .f64, .i32] →
      runs ≠ LocalRun.group [.i32, .i32, .f64, .i32] → 3 < runs.length) ∧
    Registry.Reachable {} ∧ scattered.locals.length < UInt32.size ∧
    ∃ r, (scattered.assemble "m").on {} = (.ok 0, r) ∧
      ∃ (g : Registered) (type : FuncType) (slots : List ValType) (behind : Cursor),
        r.functions[0]? = some g ∧ r.type? g.typeIndex = some type ∧
        Reader.localSlots ⟨0, (Registry.codeOf g).encode⟩ = .ok (slots, behind) ∧
        (type.params ++ slots)[3]? = some .f64 := by
  have hlength : [ValType.i32, .i32, .f64, .i32].length < UInt32.size := by decide
  have hlocals : scattered.locals.length < UInt32.size := by decide
  obtain ⟨-, -, -, -, hfewest, hslots⟩ := LocalRun.group_keeps_slots _ hlength
  obtain ⟨parts, hparts⟩ : ∃ parts, scattered.assembled = .ok parts := ⟨_, rfl⟩
  have hassemble := Function.assemble_of_assembled hparts "m" {}
  obtain ⟨g, type, slots, behind, hg, -, -, htype, hread, -, hindex⟩ :=
    hslots scattered "m" {} _ 0 .empty hlocals hassemble
  obtain ⟨v, hv, hslot⟩ := hindex 3 .float64 rfl
  obtain rfl : ValType.f64 = v := Except.ok.inj (hv "local slot")
  exact ⟨hlength, by decide, hfewest, .empty, hlocals, _, hassemble, g, type, slots, behind, hg,
    htype (by decide), hread, hslot⟩

end TreeWasm
