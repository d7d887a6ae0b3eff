-- SUMMARY: What a registry holds of the registrations it was made by, and that it only ever grows.
import TreeWasm.Proofs.Registry.Basic
import TreeWasm.Registry.Listing

/-!
# Registrations

A function is registered with a name, a signature, slots and a body. The registry keeps an index in
place of the signature (`Registry.registered?`). A registry records a log of registrations if its
functions are those of the log, in order (`Registry.Records`), and it goes on to do so whatever is
added to it, since nothing that is there ever changes (`Registry.GrowsTo`).
-/

namespace TreeWasm

/-- What a function is registered with. -/
structure Registration where
  name : String
  type : Wasm.FuncType
  /-- The slots after the parameters. -/
  locals : List Wasm.ValType
  body : Node

/-- The lines that stand for the function in the listing of a registry. -/
def Registration.lines (g : Registration) : List Line :=
  ⟨1, "(func $" ++ g.name ++ g.type.clauses⟩ ::
    ((if g.locals.isEmpty then []
      else [⟨2, "(local" ++ String.join (g.locals.map (" " ++ ·.listingName)) ++ ")"⟩]) ++
      g.body.lines 2 ++ [⟨1, ")"⟩])

namespace Registry

def register (r : Registry) (g : Registration) : Registry :=
  (r.addFunction g.name g.type g.locals g.body).2

def registerAll (r : Registry) (gs : List Registration) : Registry := gs.foldl register r

theorem registerAll_append (r : Registry) (gs gs' : List Registration) :
    r.registerAll (gs ++ gs') = (r.registerAll gs).registerAll gs' := List.foldl_append

/-- The function that the registry keeps for a registration, if it has the signature. -/
def registered? (r : Registry) (g : Registration) : Option Registered :=
  (r.findType? g.type).map fun index => ⟨g.name, index, g.locals, g.body⟩

variable {r r' r'' : Registry}

/-! ## Growth -/

/-- What is in the first registry is in the second as well, at the same index. -/
structure GrowsTo (r r' : Registry) : Prop where
  types : r.types.toList <+: r'.types.toList
  functions : r.functions.toList <+: r'.functions.toList
  findType? {type : Wasm.FuncType} {index : UInt32} :
    r.findType? type = some index → r'.findType? type = some index
  functionIndex? {name : String} {index : UInt32} :
    r.functionIndex? name = some index → r'.functionIndex? name = some index

theorem GrowsTo.refl (r : Registry) : r.GrowsTo r :=
  ⟨List.prefix_refl _, List.prefix_refl _, id, id⟩

theorem GrowsTo.trans (h : r.GrowsTo r') (h' : r'.GrowsTo r'') : r.GrowsTo r'' where
  types := h.types.trans h'.types
  functions := h.functions.trans h'.functions
  findType? hf := h'.findType? (h.findType? hf)
  functionIndex? hf := h'.functionIndex? (h.functionIndex? hf)

theorem GrowsTo.type? (h : r.GrowsTo r') {index : UInt32} {type : Wasm.FuncType}
    (ht : r.type? index = some type) : r'.type? index = some type := by
  obtain ⟨hlt, hget⟩ := List.getElem?_eq_some_iff.1 (Array.getElem?_toList.trans ht)
  have hlater := List.prefix_iff_getElem?.1 h.types index.toNat hlt
  rw [hget, Array.getElem?_toList] at hlater
  exact hlater

theorem growsTo_addType (r : Registry) (type : Wasm.FuncType) : r.GrowsTo (r.addType type).2 where
  types := by
    unfold addType
    split
    · exact List.prefix_refl _
    · rw [Array.toList_push]
      exact List.prefix_append _ _
  functions := (functions_addType r type).symm ▸ List.prefix_refl _
  findType? hf := findType?_addType_of_findType? hf type
  functionIndex? hf := by rwa [functionIndex?, functions_addType]

theorem growsTo_register (r : Registry) (g : Registration) : r.GrowsTo (r.register g) := by
  refine (growsTo_addType r g.type).trans ⟨List.prefix_refl _, ?_, id, ?_⟩
  · show _ <+: ((r.addType g.type).2.functions.push _).toList
    rw [Array.toList_push]
    exact List.prefix_append _ _
  · intro name index hf
    obtain ⟨position, hp, rfl⟩ := Option.map_eq_some_iff.1 hf
    refine Option.map_eq_some_iff.2 ⟨position, ?_, rfl⟩
    show ((r.addType g.type).2.functions.push _).findIdx? _ = some position
    rw [Array.findIdx?_push]
    exact Option.or_eq_some_iff.2 (.inl hp)

theorem growsTo_registerAll (r : Registry) (gs : List Registration) :
    r.GrowsTo (r.registerAll gs) := by
  induction gs generalizing r with
  | nil => exact .refl r
  | cons g gs ih => exact (growsTo_register r g).trans (ih (r.register g))

/-! ## Logs -/

/-- The functions of the registry are those of the log, in order, and each has the index of the
signature that it was registered with. -/
structure Records (r : Registry) (log : List Registration) : Prop where
  consistent : r.Consistent
  registered : r.functions.toList.map some = log.map r.registered?

theorem records_empty : ({} : Registry).Records [] := ⟨Reachable.empty.consistent, rfl⟩

variable {log : List Registration}

/-- Functions keep the indices of their signatures. -/
theorem GrowsTo.registered? (h : r.GrowsTo r') {f : Registered} {g : Registration}
    (hf : r.registered? g = some f) : r'.registered? g = some f := by
  obtain ⟨index, hi, rfl⟩ := Option.map_eq_some_iff.1 hf
  exact Option.map_eq_some_iff.2 ⟨index, h.findType? hi, rfl⟩

theorem Records.map_registered? (h : r.Records log) (hgrow : r.GrowsTo r') :
    log.map r'.registered? = r.functions.toList.map some := by
  rw [h.registered]
  refine List.map_congr_left fun g hg => ?_
  have hmem : r.registered? g ∈ r.functions.toList.map some :=
    h.registered ▸ List.mem_map_of_mem hg
  obtain ⟨f, -, hf⟩ := List.mem_map.1 hmem
  rw [← hf]
  exact hgrow.registered? hf.symm

theorem Records.addType (h : r.Records log) (type : Wasm.FuncType) :
    (r.addType type).2.Records log where
  consistent := h.consistent.addType type
  registered := by
    rw [functions_addType]
    exact (h.map_registered? (growsTo_addType r type)).symm

theorem Consistent.register (h : r.Consistent) (g : Registration) : (r.register g).Consistent :=
  h.addFunction g.name g.type g.locals g.body

/-- A function that has just been registered is kept with the index of its signature. -/
theorem registered?_register (r : Registry) (g : Registration) :
    (r.register g).registered? g = some ⟨g.name, (r.addType g.type).1, g.locals, g.body⟩ :=
  Option.map_eq_some_iff.2 ⟨_, r.findType?_addType g.type, rfl⟩

theorem functions_register (r : Registry) (g : Registration) :
    (r.register g).functions.toList =
      r.functions.toList ++ [⟨g.name, (r.addType g.type).1, g.locals, g.body⟩] := by
  simp [register, addFunction]

theorem Records.register (h : r.Records log) (g : Registration) :
    (r.register g).Records (log ++ [g]) where
  consistent := h.consistent.register g
  registered := by
    rw [functions_register, List.map_append, List.map_append,
      h.map_registered? (growsTo_register r g), List.map_singleton, List.map_singleton,
      registered?_register]

theorem Records.registerAll (h : r.Records log) (gs : List Registration) :
    (r.registerAll gs).Records (log ++ gs) := by
  induction gs generalizing r log with
  | nil => simpa [Registry.registerAll] using h
  | cons g gs ih =>
    rw [← List.singleton_append, ← List.append_assoc]
    exact ih (h.register g)

/-- Two functions of one signature share its index. -/
theorem registerAll_pair (g g' : Registration) (h : g'.type = g.type) :
    (({} : Registry).registerAll [g, g']).types = #[g.type] ∧
    (({} : Registry).registerAll [g, g']).functions =
      #[⟨g.name, 0, g.locals, g.body⟩, ⟨g'.name, 0, g'.locals, g'.body⟩] := by
  have hnone : ({} : Registry).findType? g.type = none := by simp [findType?]
  have hadd : (({} : Registry).addType g.type).1 = 0 ∧
      (({} : Registry).addType g.type).2.types = #[g.type] := by
    simp [addType, hnone, typeCount]
  have hfound : (({} : Registry).register g).addType g'.type = (0, ({} : Registry).register g) := by
    rw [h, ← hadd.1]
    exact addType_of_findType? (({} : Registry).findType?_addType g.type)
  show (register _ g').types = _ ∧ (register _ g').functions = _
  unfold register addFunction at hfound ⊢
  simp only [hfound]
  simp [hadd]

theorem Reachable.register (h : r.Reachable) (g : Registration) : (r.register g).Reachable :=
  .addFunction g.name g.type g.locals g.body h

theorem Reachable.registerAll (h : r.Reachable) (gs : List Registration) :
    (r.registerAll gs).Reachable := by
  induction gs generalizing r with
  | nil => exact h
  | cons g gs ih => exact ih (h.register g)

/-! ## Looking things up -/

theorem Records.size_functions (h : r.Records log) : r.functions.size = log.length := by
  simpa using congrArg List.length h.registered

theorem Records.functionCount_eq (h : r.Records log) : r.functionCount = .ofNat log.length :=
  congrArg UInt32.ofNat h.size_functions

theorem Records.getElem? (h : r.Records log) {position : Nat} {g : Registration}
    (hg : log[position]? = some g) :
    ∃ f, r.functions[position]? = some f ∧ r.registered? g = some f := by
  have hmapped : (r.functions.toList.map some)[position]? = some (r.registered? g) := by
    rw [h.registered, List.getElem?_map, hg]
    rfl
  rw [List.getElem?_map, Array.getElem?_toList] at hmapped
  obtain ⟨f, hf, hsome⟩ := Option.map_eq_some_iff.1 hmapped
  exact ⟨f, hf, hsome.symm⟩

/-- What a function and its registration have in common is the same list for the registry and for
the log. -/
theorem Records.map_eq (h : r.Records log) {p : Registered → α} {q : Registration → α}
    (hpq : ∀ g f, r.registered? g = some f → p f = q g) :
    r.functions.toList.map p = log.map q := by
  have hreg := h.registered
  clear h
  generalize r.functions.toList = fs at hreg ⊢
  induction fs generalizing log with
  | nil =>
    obtain rfl : log = [] := by simpa using hreg.symm
    rfl
  | cons f fs ih =>
    obtain _ | ⟨g, gs⟩ := log
    · cases hreg
    · simp only [List.map_cons, List.cons.injEq] at hreg ⊢
      exact ⟨hpq g f hreg.1.symm, ih hreg.2⟩

/-- Functions keep the names that they were registered under. -/
theorem Records.names_eq (h : r.Records log) : r.names = log.map Registration.name := by
  refine h.map_eq fun g f hf => ?_
  obtain ⟨_, -, rfl⟩ := Option.map_eq_some_iff.1 hf
  rfl

/-- A name leads to the first function that was registered under it. -/
theorem Records.functionIndex?_eq (h : r.Records log) (name : String) :
    r.functionIndex? name = (log.findIdx? (·.name == name)).map .ofNat := by
  have hlist : r.functionIndex? name = (r.names.findIdx? (· == name)).map .ofNat := by
    unfold functionIndex? names
    rw [List.findIdx?_map, ← List.findIdx?_toArray]
    rfl
  rw [hlist, h.names_eq, List.findIdx?_map]
  rfl

/-- As long as indices do not repeat, the listing shows each function with the signature that it was
registered with. -/
theorem Records.flatMap_functionLines (h : r.Records log) (hsize : r.types.size ≤ UInt32.size) :
    r.functions.toList.flatMap r.functionLines = log.flatMap Registration.lines := by
  rw [List.flatMap_def, List.flatMap_def]
  refine congrArg List.flatten (h.map_eq fun g f hf => ?_)
  obtain ⟨index, hi, rfl⟩ := Option.map_eq_some_iff.1 hf
  unfold functionLines Registration.lines
  rw [h.consistent.type?_of_findType? hsize hi]
  rfl

end Registry

end TreeWasm
