-- SUMMARY: Whatever calls are made on a new registry, its tables agree with each other and with what was registered.
import TreeWasm.Proofs.Assembly.Registrations
import TreeWasm.Proofs.Registry.Emission

/-!
# Calls on a registry

A registry is made by calls that add a type or a function, or that assemble a function or a module.
Assembling may fail, and what a module registers before a failure stays. Whatever calls are made,
the registry records what they registered (`Registry.records_run`), and a call changes nothing that
is there (`Registry.growsTo_perform`).

Indices are positions as integers of 32 bits. They are told apart as long as there are no more types
and functions than such integers, which nothing takes care of
(`Registry.exists_findType?_ne_type?`).
-/

namespace TreeWasm

namespace Registry

inductive Call where
  | addType (type : Wasm.FuncType)
  | addFunction (g : Registration)
  | assembleFunction (moduleName : String) (f : Function)
  | assembleModule (m : Module)

/-- What a call gives back when it does not fail. -/
inductive Answer where
  | typeIndex (index : UInt32)
  | functionIndex (index : UInt32)
  | done
deriving DecidableEq

namespace Call

def perform : Call → Assembling Answer
  | .addType type => do
    let (index, r) := (← get).addType type
    set r
    return .typeIndex index
  | .addFunction g => .functionIndex <$> Assembling.register g.name ⟨g.type, g.locals, g.body⟩
  | .assembleFunction moduleName f => .functionIndex <$> f.assemble moduleName
  | .assembleModule m => do
    m.assemble
    return .done

/-- What a call registers. -/
def registrations : Call → List Registration
  | .addType _ => []
  | .addFunction g => [g]
  | .assembleFunction moduleName f => accepted [f.qualify moduleName]
  | .assembleModule m => accepted (m.functions.map (.qualify m.name))

end Call

/-- The registry after calls. A call that fails does not keep the next from being made. -/
def after (r : Registry) (calls : List Call) : Registry :=
  calls.foldl (fun r c => (c.perform.on r).2) r

/-- The registry after calls on a new one. -/
def run (calls : List Call) : Registry := ({} : Registry).after calls

/-- What calls register, in order. -/
def logOf (calls : List Call) : List Registration := calls.flatMap Call.registrations

/-! ## One call -/

variable (r : Registry)

theorem on_addType (type : Wasm.FuncType) :
    (Call.addType type).perform.on r = (.ok (.typeIndex (r.addType type).1), (r.addType type).2) :=
  rfl

theorem on_addFunction (g : Registration) :
    (Call.addFunction g).perform.on r = (.ok (.functionIndex r.functionCount), r.register g) := by
  rw [← r.addFunction_index g.name g.type g.locals g.body]
  rfl

theorem on_assembleFunction (moduleName : String) (f : Function) :
    (Call.assembleFunction moduleName f).perform.on r =
      match (f.qualify moduleName).registration with
      | .ok g => (.ok (.functionIndex r.functionCount), r.register g)
      | .error d => (.error d, r) := by
  show (Answer.functionIndex <$> f.assemble moduleName : Assembling Answer).on r = _
  rw [map_eq_pure_bind, Assembling.on_bind, f.on_assemble]
  cases (f.qualify moduleName).registration <;> rfl

theorem on_assembleModule (m : Module) :
    (Call.assembleModule m).perform.on r =
      (verdict (m.functions.map (.qualify m.name)) >>= fun _ => .ok .done,
        r.registerAll (accepted (m.functions.map (.qualify m.name)))) := by
  unfold Call.perform
  rw [Assembling.on_bind, Module.assemble, on_assembleAll]
  cases verdict (m.functions.map (.qualify m.name)) <;> rfl

variable {r}

/-- A call registers what it is there to register, and a type if it adds one. -/
theorem snd_perform (c : Call) :
    (∃ type, c = .addType type ∧ (c.perform.on r).2 = (r.addType type).2) ∨
      (c.perform.on r).2 = r.registerAll c.registrations := by
  cases c with
  | addType type => exact .inl ⟨type, rfl, congrArg Prod.snd (on_addType r type)⟩
  | addFunction g => exact .inr (congrArg Prod.snd (on_addFunction r g))
  | assembleFunction moduleName f =>
    right
    rw [on_assembleFunction, Call.registrations, accepted]
    cases (f.qualify moduleName).registration <;> rfl
  | assembleModule m => exact .inr (congrArg Prod.snd (on_assembleModule r m))

theorem growsTo_perform (c : Call) : r.GrowsTo (c.perform.on r).2 := by
  obtain ⟨type, -, h⟩ | h := snd_perform (r := r) c
  · rw [h]
    exact growsTo_addType r type
  · rw [h]
    exact growsTo_registerAll r c.registrations

theorem Records.perform {log : List Registration} (h : r.Records log) (c : Call) :
    (c.perform.on r).2.Records (log ++ c.registrations) := by
  obtain ⟨type, rfl, hstep⟩ | hstep := snd_perform (r := r) c
  · rw [hstep, Call.registrations, List.append_nil]
    exact h.addType type
  · rw [hstep]
    exact h.registerAll c.registrations

/-! ## Runs -/

theorem growsTo_after (r : Registry) (calls : List Call) : r.GrowsTo (r.after calls) := by
  induction calls generalizing r with
  | nil => exact .refl r
  | cons c calls ih => exact (growsTo_perform c).trans (ih _)

theorem Records.after {log : List Registration} (h : r.Records log) (calls : List Call) :
    (r.after calls).Records (log ++ logOf calls) := by
  induction calls generalizing r log with
  | nil => simpa [logOf, Registry.after] using h
  | cons c calls ih =>
    have hlog : log ++ logOf (c :: calls) = (log ++ c.registrations) ++ logOf calls := by
      simp [logOf]
    rw [hlog]
    exact ih (h.perform c)

theorem records_run (calls : List Call) : (run calls).Records (logOf calls) :=
  records_empty.after calls

theorem size_types_registerAll_le (r : Registry) (gs : List Registration) :
    (r.registerAll gs).types.size ≤ r.types.size + gs.length := by
  induction gs generalizing r with
  | nil => exact Nat.le_refl _
  | cons g gs ih =>
    have hstep : (r.register g).types.size ≤ r.types.size + 1 := r.size_types_addType_le g.type
    have hrest : (r.registerAll (g :: gs)).types.size ≤ (r.register g).types.size + gs.length :=
      ih (r.register g)
    rw [List.length_cons]
    omega

/-- Every call adds a type at most, and one more for each function that it registers. -/
theorem size_types_after_le (r : Registry) (calls : List Call) :
    (r.after calls).types.size ≤ r.types.size + (calls.length + (logOf calls).length) := by
  induction calls generalizing r with
  | nil => exact Nat.le_refl _
  | cons c calls ih =>
    have hrest := ih (c.perform.on r).2
    have hstep : (c.perform.on r).2.types.size ≤ r.types.size + (1 + c.registrations.length) := by
      obtain ⟨type, -, h⟩ | h := snd_perform (r := r) c
      · rw [h]
        have := r.size_types_addType_le type
        omega
      · rw [h]
        have := r.size_types_registerAll_le c.registrations
        omega
    have hlog : (logOf (c :: calls)).length = c.registrations.length + (logOf calls).length := by
      simp [logOf]
    have hafter : r.after (c :: calls) = (c.perform.on r).2.after calls := rfl
    rw [hafter, List.length_cons, hlog]
    omega

theorem run_append (calls more : List Call) : run (calls ++ more) = (run calls).after more :=
  List.foldl_append

/-- The tables of a registry agree with each other and with a log of registrations. An index is the
position of a type or a function as an integer of 32 bits. -/
structure Agrees (r : Registry) (log : List Registration) : Prop where
  nodup_types : r.types.toList.Nodup
  mem_typeIndices (type : Wasm.FuncType) (index : UInt32) :
    (type, index) ∈ r.typeIndices.toList ↔
      ∃ position, r.types[position]? = some type ∧ .ofNat position = index
  findType?_eq_some (type : Wasm.FuncType) (index : UInt32) :
    r.findType? type = some index ↔
      ∃ position, r.types[position]? = some type ∧ .ofNat position = index
  findType?_eq_none (type : Wasm.FuncType) : r.findType? type = none ↔ type ∉ r.types.toList
  size_functions : r.functions.size = log.length
  functionCount : r.functionCount = .ofNat log.length
  functions {position : Nat} {g : Registration} : log[position]? = some g →
    ∃ f, r.functions[position]? = some f ∧ f.name = g.name ∧ f.locals = g.locals ∧ f.body = g.body ∧
      f.typeIndex.toNat < r.types.size ∧ r.findType? g.type = some f.typeIndex
  functionIndex? (name : String) (index : UInt32) : r.functionIndex? name = some index ↔
    ∃ position, .ofNat position = index ∧ (∃ g, log[position]? = some g ∧ g.name = name) ∧
      ∀ earlier < position, ∀ g, log[earlier]? = some g → g.name ≠ name

/-- Indices are told apart, so that each leads back to what it was given to. -/
structure AgreesByIndex (r : Registry) (log : List Registration) : Prop where
  findType?_eq_some (type : Wasm.FuncType) (index : UInt32) :
    r.findType? type = some index ↔ r.type? index = some type
  findType?_eq_none (type : Wasm.FuncType) :
    r.findType? type = none ↔ ∀ index, r.type? index ≠ some type
  signatures {position : Nat} {g : Registration} : log[position]? = some g →
    ∃ f, r.functions[position]? = some f ∧ r.type? f.typeIndex = some g.type
  functionIndex? (name : String) (index : UInt32) : r.functionIndex? name = some index ↔
    (∃ g, log[index.toNat]? = some g ∧ g.name = name) ∧
      ∀ earlier < index.toNat, ∀ g, log[earlier]? = some g → g.name ≠ name
  listing : r.functions.toList.flatMap r.functionLines = log.flatMap Registration.lines

theorem findIdx?_name_eq_some_iff {log : List Registration} {name : String} {position : Nat} :
    log.findIdx? (·.name == name) = some position ↔
      (∃ g, log[position]? = some g ∧ g.name = name) ∧
        ∀ earlier < position, ∀ g, log[earlier]? = some g → g.name ≠ name := by
  rw [List.findIdx?_eq_some_iff_getElem]
  constructor
  · rintro ⟨hi, hname, hearlier⟩
    refine ⟨⟨log[position], List.getElem?_eq_getElem hi, beq_iff_eq.1 hname⟩, ?_⟩
    intro earlier hlt g hg heq
    obtain ⟨_, rfl⟩ := List.getElem?_eq_some_iff.1 hg
    exact hearlier earlier hlt (beq_iff_eq.2 heq)
  · rintro ⟨⟨g, hg, rfl⟩, hearlier⟩
    obtain ⟨hi, rfl⟩ := List.getElem?_eq_some_iff.1 hg
    refine ⟨hi, beq_self_eq_true _, fun earlier hlt heq => ?_⟩
    exact hearlier earlier hlt _ (List.getElem?_eq_getElem _) (beq_iff_eq.1 heq)

theorem Records.agrees {log : List Registration} (h : r.Records log) : r.Agrees log where
  nodup_types := h.consistent.nodup_types
  mem_typeIndices type index := by
    rw [Std.HashMap.mem_toList_iff_getElem?_eq_some]
    exact h.consistent.findType?_eq_some_iff type index
  findType?_eq_some := h.consistent.findType?_eq_some_iff
  findType?_eq_none _ := h.consistent.findType?_eq_none_iff
  size_functions := h.size_functions
  functionCount := h.functionCount_eq
  functions {position g} hg := by
    obtain ⟨f, hf, hreg⟩ := h.getElem? hg
    obtain ⟨index, hi, rfl⟩ := Option.map_eq_some_iff.1 hreg
    exact ⟨_, hf, rfl, rfl, rfl, h.consistent.toNat_lt_of_findType? hi, hi⟩
  functionIndex? name index := by
    rw [h.functionIndex?_eq, Option.map_eq_some_iff]
    exact exists_congr fun position => by rw [findIdx?_name_eq_some_iff, and_comm]

theorem Records.agreesByIndex {log : List Registration} (h : r.Records log)
    (htypes : r.types.size ≤ UInt32.size) (hfunctions : r.functions.size ≤ UInt32.size) :
    r.AgreesByIndex log where
  findType?_eq_some := h.consistent.findType?_eq_some_iff_type? htypes
  findType?_eq_none type := by
    rw [Option.eq_none_iff_forall_ne_some]
    exact forall_congr' fun index =>
      not_congr (h.consistent.findType?_eq_some_iff_type? htypes type index)
  signatures {position g} hg := by
    obtain ⟨f, hf, hreg⟩ := h.getElem? hg
    obtain ⟨index, hi, rfl⟩ := Option.map_eq_some_iff.1 hreg
    exact ⟨_, hf, h.consistent.type?_of_findType? htypes hi⟩
  functionIndex? name index := by
    rw [h.functionIndex?_eq, Option.map_eq_some_iff, ← findIdx?_name_eq_some_iff]
    constructor
    · rintro ⟨position, hp, rfl⟩
      have hlt : position < UInt32.size := by
        obtain ⟨hlt, -⟩ := List.findIdx?_eq_some_iff_getElem.1 hp
        exact Nat.lt_of_lt_of_le hlt (h.size_functions ▸ hfunctions)
      rwa [UInt32.toNat_ofNat_of_lt' hlt]
    · intro hp
      exact ⟨index.toNat, hp, UInt32.ofNat_toNat⟩
  listing := h.flatMap_functionLines htypes

/-- What a call gives back says where the type or the function is that it was made for. -/
def Call.Answered (c : Call) (calls more : List Call) : Answer → Prop
  | .typeIndex index => ∃ type, c = .addType type ∧
      (run (calls ++ c :: more)).findType? type = some index ∧
      ((run calls).types.size < UInt32.size →
        (run (calls ++ c :: more)).type? index = some type)
  | .functionIndex index => ∃ g, c.registrations = [g] ∧
      index = .ofNat (logOf calls).length ∧
      (logOf (calls ++ c :: more))[(logOf calls).length]? = some g
  | .done => ∃ m, c = .assembleModule m

theorem answered (calls more : List Call) (c : Call) (answer : Answer)
    (h : (c.perform.on (run calls)).1 = .ok answer) : c.Answered calls more answer := by
  have hcount := (records_run calls).functionCount_eq
  have hlog {g : Registration} (hg : c.registrations = [g]) :
      (logOf (calls ++ c :: more))[(logOf calls).length]? = some g := by
    simp [logOf, hg]
  cases c with
  | addType type =>
    rw [on_addType] at h
    cases h
    have hfound := (run calls).findType?_addType type
    have hgrows : ((run calls).addType type).2.GrowsTo (run (calls ++ .addType type :: more)) := by
      rw [run_append]
      exact growsTo_after _ more
    refine ⟨type, rfl, hgrows.findType? hfound, fun hsize => hgrows.type? ?_⟩
    have hsize' := Nat.le_trans ((run calls).size_types_addType_le type) hsize
    exact ((records_run calls).consistent.addType type).type?_of_findType? hsize' hfound
  | addFunction g =>
    rw [on_addFunction] at h
    cases h
    exact ⟨g, rfl, hcount, hlog rfl⟩
  | assembleFunction moduleName f =>
    rw [on_assembleFunction] at h
    cases hreg : (f.qualify moduleName).registration with
    | error d =>
      rw [hreg] at h
      cases h
    | ok g =>
      rw [hreg] at h
      cases h
      have hg : (Call.assembleFunction moduleName f).registrations = [g] := by
        simp [Call.registrations, accepted, hreg]
      exact ⟨g, hg, hcount, hlog hg⟩
  | assembleModule m =>
    rw [on_assembleModule] at h
    obtain ⟨_, -, hdone⟩ := bind_eq_ok_iff.1 h
    cases hdone
    exact ⟨m, rfl⟩

/-- Types that are not there yet are added one behind the other. -/
theorem types_after_addType (h : r.Consistent) {types : List Wasm.FuncType}
    (hnodup : (r.types.toList ++ types).Nodup) :
    (r.after (types.map .addType)).types.toList = r.types.toList ++ types := by
  induction types generalizing r with
  | nil => exact (List.append_nil _).symm
  | cons type types ih =>
    have hnew : type ∉ r.types.toList := fun hmem =>
      (List.nodup_append.1 hnodup).2.2 type hmem type List.mem_cons_self rfl
    have hadd : (r.addType type).2.types.toList = r.types.toList ++ [type] := by
      simp only [addType, h.findType?_eq_none_iff.2 hnew, Array.toList_push]
    have hsplit : r.types.toList ++ type :: types = (r.addType type).2.types.toList ++ types := by
      rw [hadd, List.append_assoc]
      rfl
    rw [hsplit] at hnodup ⊢
    exact ih (h.addType type) hnodup

/-- The signature of a function that takes so many integers. -/
def taking (n : Nat) : Wasm.FuncType := ⟨List.replicate n .i32, []⟩

theorem taking_inj {m n : Nat} (h : taking m = taking n) : m = n := by
  simpa [taking] using congrArg (·.params.length) h

/-- Types in any number, each once. -/
theorem getElem?_types_run_taking {count n : Nat} (h : n < count) :
    (run ((List.range count).map (.addType ∘ taking))).types[n]? = some (taking n) := by
  have hnodup : ((List.range count).map taking).Nodup :=
    List.pairwise_map.2 (List.nodup_range.imp fun hne heq => hne (taking_inj heq))
  have htypes := types_after_addType Reachable.empty.consistent hnodup
  rw [List.map_map] at htypes
  rw [← Array.getElem?_toList, run, htypes]
  show ((List.range count).map taking)[n]? = some (taking n)
  rw [List.getElem?_map, List.getElem?_range h]
  rfl

/-- With one type more than there are integers of 32 bits, an index leads to another type than one
that it was given to. -/
theorem exists_findType?_ne_type? : ∃ calls type index,
    (run calls).findType? type = some index ∧ (run calls).type? index ≠ some type := by
  let calls := (List.range (UInt32.size + 1)).map (Call.addType ∘ taking)
  have hlast : (run calls).types[UInt32.size]? = some (taking UInt32.size) :=
    getElem?_types_run_taking (Nat.lt_succ_self _)
  have hfirst : (run calls).types[0]? = some (taking 0) :=
    getElem?_types_run_taking (Nat.succ_pos _)
  have hindex : UInt32.ofNat UInt32.size = 0 := by decide
  refine ⟨calls, taking UInt32.size, 0, ?_, fun h => ?_⟩
  · rw [(records_run calls).consistent.findType?_eq_some_iff]
    exact ⟨UInt32.size, hlast, hindex⟩
  · have hsame : 0 = UInt32.size := taking_inj (Option.some.inj (hfirst.symm.trans h))
    exact absurd hsame (by decide)

/-- A type is added, and a module is assembled whose second function is refused. -/
def mixed : List Call :=
  [.addType ⟨[.f64], []⟩,
    .assembleModule ⟨"m", [⟨"f", [.int32], .int32, [], .localGet 0 .int32⟩,
      ⟨"g", [.never], .int32, [], .constInt32 0⟩]⟩]

end Registry

end TreeWasm
