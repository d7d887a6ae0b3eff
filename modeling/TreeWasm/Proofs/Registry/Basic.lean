-- SUMMARY: Registries that are built by adding types and functions, and what holds of all of them.
import TreeWasm.Registry.Basic

/-!
# Registries that are built

A registry starts empty, and types and functions are added to it. In any registry that comes about
so (`Registry.Reachable`) no type is twice in the table, the look-up table knows the index of each,
and every function has the index of a type that is there (`Registry.Consistent`).

An index is the position of a type as an integer of 32 bits. As long as there are no more types than
such integers, an index leads back to its type (`Registry.Consistent.type?_of_findType?`); positions
beyond them share the indices of others.
-/

namespace TreeWasm

/-- A number is no less as an integer of 32 bits than what is left of it. -/
theorem toNat_ofNat_le (n : Nat) : (UInt32.ofNat n).toNat ≤ n := by
  rw [UInt32.toNat_ofNat']
  exact Nat.mod_le n _

namespace Registry

/-- The registry is built by adding types and functions. -/
inductive Reachable : Registry → Prop where
  | empty : Reachable {}
  | addType {r} (type : Wasm.FuncType) : Reachable r → Reachable (r.addType type).2
  | addFunction {r} (name : String) (type : Wasm.FuncType) (locals : List Wasm.ValType)
      (body : Node) : Reachable r → Reachable (r.addFunction name type locals body).2

/-- The table of types and the look-up table say the same, and functions have types of the table. -/
structure Consistent (r : Registry) : Prop where
  nodup_types : r.types.toList.Nodup
  findType?_eq_some_iff (type : Wasm.FuncType) (index : UInt32) :
    r.findType? type = some index ↔
      ∃ position, r.types[position]? = some type ∧ .ofNat position = index
  findType?_typeIndex {f : Registered} : f ∈ r.functions.toList →
    ∃ type, r.findType? type = some f.typeIndex

variable {r : Registry}

/-! ## Types -/

theorem Consistent.mem_types_iff (h : r.Consistent) {type : Wasm.FuncType} :
    type ∈ r.types.toList ↔ ∃ index, r.findType? type = some index := by
  simp only [h.findType?_eq_some_iff, List.mem_iff_getElem?, Array.getElem?_toList]
  exact ⟨fun ⟨position, hp⟩ => ⟨_, position, hp, rfl⟩, fun ⟨_, position, hp, _⟩ => ⟨position, hp⟩⟩

theorem Consistent.findType?_eq_none_iff (h : r.Consistent) {type : Wasm.FuncType} :
    r.findType? type = none ↔ type ∉ r.types.toList := by
  rw [h.mem_types_iff, Option.eq_none_iff_forall_ne_some, not_exists]

/-- Whether or not indices repeat, there is a type at each that is found. -/
theorem Consistent.toNat_lt_of_findType? (h : r.Consistent) {type : Wasm.FuncType} {index : UInt32}
    (hf : r.findType? type = some index) : index.toNat < r.types.size := by
  obtain ⟨position, hp, rfl⟩ := (h.findType?_eq_some_iff type index).1 hf
  exact Nat.lt_of_le_of_lt (toNat_ofNat_le position) (Array.getElem?_eq_some_iff.1 hp).1

theorem Consistent.typeIndex_lt (h : r.Consistent) {f : Registered}
    (hf : f ∈ r.functions.toList) : f.typeIndex.toNat < r.types.size := by
  obtain ⟨_, hfound⟩ := h.findType?_typeIndex hf
  exact h.toNat_lt_of_findType? hfound

/-- As long as indices do not repeat, each leads to the type that it was given to. -/
theorem Consistent.findType?_eq_some_iff_type? (h : r.Consistent)
    (hsize : r.types.size ≤ UInt32.size) (type : Wasm.FuncType) (index : UInt32) :
    r.findType? type = some index ↔ r.type? index = some type := by
  rw [h.findType?_eq_some_iff]
  constructor
  · rintro ⟨position, hp, rfl⟩
    have hlt : position < UInt32.size :=
      Nat.lt_of_lt_of_le (Array.getElem?_eq_some_iff.1 hp).1 hsize
    rwa [type?, UInt32.toNat_ofNat_of_lt' hlt]
  · intro ht
    exact ⟨index.toNat, ht, UInt32.ofNat_toNat⟩

theorem Consistent.type?_of_findType? (h : r.Consistent) (hsize : r.types.size ≤ UInt32.size)
    {type : Wasm.FuncType} {index : UInt32} (hf : r.findType? type = some index) :
    r.type? index = some type :=
  (h.findType?_eq_some_iff_type? hsize type index).1 hf

theorem size_types_addType_le (r : Registry) (type : Wasm.FuncType) :
    (r.addType type).2.types.size ≤ r.types.size + 1 := by
  unfold addType
  split <;> simp

/-- A type that was not there is found at the index of the last. -/
theorem findType?_addType_of_new {added : Wasm.FuncType} (hnew : r.findType? added = none)
    (type : Wasm.FuncType) :
    (r.addType added).2.findType? type =
      if added = type then some r.typeCount else r.findType? type := by
  simp only [addType, hnew]
  show (r.typeIndices.insert added r.typeCount)[type]? = _
  simp only [Std.HashMap.getElem?_insert, beq_iff_eq]
  rfl

/-- With a new type behind them, types stay at their positions, and the new one is at the end. -/
theorem exists_getElem?_push {types : Array Wasm.FuncType} {added type : Wasm.FuncType}
    {index : UInt32} :
    (∃ position, (types.push added)[position]? = some type ∧ .ofNat position = index) ↔
      (∃ position, types[position]? = some type ∧ .ofNat position = index) ∨
        (added = type ∧ .ofNat types.size = index) := by
  constructor
  · rintro ⟨position, hp, hindex⟩
    rw [Array.getElem?_push] at hp
    split at hp
    · next hlast => exact .inr ⟨Option.some.inj hp, hlast ▸ hindex⟩
    · exact .inl ⟨position, hp, hindex⟩
  · rintro (⟨position, hp, hindex⟩ | ⟨rfl, hindex⟩)
    · have hlt : position < types.size := (Array.getElem?_eq_some_iff.1 hp).1
      refine ⟨position, ?_, hindex⟩
      rwa [Array.getElem?_push, if_neg (Nat.ne_of_lt hlt)]
    · exact ⟨types.size, Array.getElem?_push_size, hindex⟩

/-- Types that are found keep their indices. -/
theorem findType?_addType_of_findType? {type : Wasm.FuncType} {index : UInt32}
    (h : r.findType? type = some index) (added : Wasm.FuncType) :
    (r.addType added).2.findType? type = some index := by
  cases hfind : r.findType? added with
  | some found => rwa [addType_of_findType? hfind]
  | none =>
    have hne : added ≠ type := by
      rintro rfl
      cases hfind.symm.trans h
    rwa [findType?_addType_of_new hfind, if_neg hne]

theorem Consistent.addType (h : r.Consistent) (added : Wasm.FuncType) :
    (r.addType added).2.Consistent := by
  cases hfind : r.findType? added with
  | some found => rwa [addType_of_findType? hfind]
  | none =>
    have hnew : added ∉ r.types.toList := h.findType?_eq_none_iff.1 hfind
    have htypes : (r.addType added).2.types = r.types.push added := by
      simp only [Registry.addType, hfind]
    refine ⟨?_, fun type index => ?_, fun hf => ?_⟩
    · rw [htypes, Array.toList_push]
      refine List.nodup_append.2 ⟨h.nodup_types, List.pairwise_singleton _ _, fun t ht _ hs => ?_⟩
      rw [List.mem_singleton.1 hs]
      rintro rfl
      exact hnew ht
    · rw [findType?_addType_of_new hfind, htypes, exists_getElem?_push,
        ← h.findType?_eq_some_iff type index]
      by_cases hsame : added = type
      · subst hsame
        simp [hfind, typeCount]
      · simp [hsame]
    · rw [functions_addType] at hf
      obtain ⟨type, hfound⟩ := h.findType?_typeIndex hf
      exact ⟨type, findType?_addType_of_findType? hfound added⟩

/-! ## Functions -/

theorem Consistent.addFunction (h : r.Consistent) (name : String) (type : Wasm.FuncType)
    (locals : List Wasm.ValType) (body : Node) :
    (r.addFunction name type locals body).2.Consistent where
  nodup_types := (h.addType type).nodup_types
  findType?_eq_some_iff := (h.addType type).findType?_eq_some_iff
  findType?_typeIndex {f} hf := by
    have hf' : f ∈ (r.addType type).2.functions.toList ++
        [⟨name, (r.addType type).1, locals, body⟩] := by
      simpa [Registry.addFunction] using hf
    rcases List.mem_append.1 hf' with hf | hf
    · exact (h.addType type).findType?_typeIndex hf
    · obtain rfl := List.mem_singleton.1 hf
      exact ⟨type, r.findType?_addType type⟩

theorem Reachable.consistent (h : r.Reachable) : r.Consistent := by
  induction h with
  | empty =>
    exact ⟨List.nodup_nil, fun type index => by simp [findType?], fun hf => by cases hf⟩
  | addType type _ ih => exact ih.addType type
  | addFunction name type locals body _ ih => exact ih.addFunction name type locals body

end Registry

end TreeWasm
