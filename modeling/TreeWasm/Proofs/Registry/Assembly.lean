-- SUMMARY: Assembling functions that are valid gives a registry whose image fits together.
import TreeWasm.Proofs.Assembly.Registrations
import TreeWasm.Proofs.Binary.LocalRuns
import TreeWasm.Proofs.Registry.Emission
import TreeWasm.Proofs.Validation.Image

/-!
# Registries of programs

Assembly registers the functions of a program in order. If each of them is valid by itself, the
registry that they end up in is too (`assembleProgram_eq_ok`): types keep their indices, so a
function stays valid whatever is registered behind it. The image of such a registry fits together
(`Registry.Consistent.sound_image`).
-/

namespace TreeWasm

open Wasm

/-- Code that is valid in a module is valid by itself. -/
theorem Assembled.Valid.code {f : Assembled} (h : f.Valid {}) :
    (f.body.code f.locals).Valid f.type := by
  unfold Code.Valid Code.scope Code.slots Node.code
  rw [LocalRun.expand_group]
  exact h

/-! ## Types of numbers -/

theorem allPlain_of_map_valType? {ts : List ValueType} {vs : List ValType}
    (h : ts.map ValueType.valType? = vs.map some) : AllPlain vs := by
  intro v hv
  have hmem : some v ∈ ts.map ValueType.valType? := h ▸ List.mem_map_of_mem hv
  obtain ⟨t, -, ht⟩ := List.mem_map.1 hmem
  exact ValueType.ref?_of_valType? ht

/-- What functions are assembled to is about numbers only. -/
structure Assembled.Plain (f : Assembled) : Prop where
  type : f.type.Plain
  locals : AllPlain f.locals

theorem Function.plain_of_assembled {f : Function} {parts : Assembled}
    (h : f.assembled = .ok parts) : parts.Plain := by
  have hreg : f.registration = .ok ⟨f.name, parts.type, parts.locals, parts.body⟩ := by
    rw [registration, h]
  have hrep := represents_of_registration hreg
  have hresults : AllPlain parts.type.results := fun v hv =>
    ValueType.ref?_of_valType? (Option.mem_toList.1 (hrep.results ▸ hv))
  exact ⟨⟨allPlain_of_map_valType? hrep.params, hresults⟩, allPlain_of_map_valType? hrep.locals⟩

theorem Assembled.Plain.code {f : Assembled} (h : f.Plain) : (f.body.code f.locals).Plain where
  runs run hrun := by
    refine h.locals _ ?_
    rw [← LocalRun.expand_group f.locals]
    exact List.mem_flatMap.2 ⟨run, hrun, List.mem_replicate.2
      ⟨Nat.ne_of_gt ((LocalRun.canonical_group f.locals).count_pos run hrun), rfl⟩⟩
  body := f.body.isPlain_operators

namespace Registry

/-- Types are about numbers only, and the code of every function is that of a function of its
type. -/
structure Sound (r : Registry) : Prop where
  types : ∀ t ∈ r.types.toList, t.Plain
  codes : ∀ f ∈ r.functions.toList, (codeOf f).Plain
  functions : ∀ f ∈ r.functions.toList, ∃ type, r.findType? type = some f.typeIndex ∧
    (codeOf f).Valid type

variable {r : Registry}

theorem sound_empty : ({} : Registry).Sound := ⟨nofun, nofun, nofun⟩

theorem functions_addFunction (r : Registry) (name : String) (type : FuncType)
    (locals : List ValType) (body : Node) :
    (r.addFunction name type locals body).2.functions.toList =
      r.functions.toList ++ [⟨name, (r.addType type).1, locals, body⟩] := by
  simp [addFunction]

/-- A valid function may be added to valid ones. -/
theorem Consistent.sound_addFunction (h : r.Consistent) (hs : r.Sound) (name : String)
    {f : Assembled} (hf : f.Valid {}) (hp : f.Plain) :
    (r.addFunction name f.type f.locals f.body).2.Sound where
  types t ht := by
    rcases (h.mem_types_addType t f.type).1 ht with ht | rfl
    · exact hs.types t ht
    · exact hp.type
  codes g hg := by
    rw [functions_addFunction] at hg
    rcases List.mem_append.1 hg with hg | hg
    · exact hs.codes g hg
    · obtain rfl := List.mem_singleton.1 hg
      exact hp.code
  functions g hg := by
    rw [functions_addFunction] at hg
    rcases List.mem_append.1 hg with hg | hg
    · obtain ⟨type, hfound, hvalid⟩ := hs.functions g hg
      exact ⟨type, findType?_addType_of_findType? hfound f.type, hvalid⟩
    · obtain rfl := List.mem_singleton.1 hg
      exact ⟨f.type, r.findType?_addType f.type, hf.code⟩

/-! ## Images -/

/-- The image of a registry of valid functions fits together. -/
theorem Consistent.sound_image (h : r.Consistent) (hs : r.Sound)
    (hsize : r.types.size ≤ UInt32.size) (settings : Settings) : (r.image settings).Sound where
  plain.types := hs.types
  plain.codes := by
    intro c hc
    obtain ⟨f, hf, rfl⟩ := List.mem_map.1 hc
    exact hs.codes f hf
  typeIndices := by
    intro index hi
    obtain ⟨f, hf, rfl⟩ := List.mem_map.1 hi
    exact h.typeIndex_lt hf
  counts := by simp [image]
  exported := by
    intro e he
    have hlt : e.function < r.names.length :=
      lt_of_mem_mapIdx Export.function (fun _ _ => rfl) he
    simpa [image, names] using hlt
  codes := by
    intro i type c ht hc
    obtain ⟨index, hindex, htype⟩ := Option.bind_eq_some_iff.1 ht
    simp only [image, List.getElem?_map] at hindex hc
    obtain ⟨f, hf, rfl⟩ := Option.map_eq_some_iff.1 hc
    rw [hf] at hindex
    cases hindex
    obtain ⟨type', hfound, hvalid⟩ := hs.functions f (List.mem_of_getElem? hf)
    have hsame := h.type?_of_findType? hsize hfound
    rw [type?, ← Array.getElem?_toList] at hsame
    obtain rfl : type' = type := Option.some.inj (hsame.symm.trans htype)
    exact hvalid

theorem counts_image (r : Registry) (settings : Settings) :
    (r.image settings).functions.length = (r.image settings).codes.length := by
  simp [image]

theorem exportNames_image (r : Registry) (settings : Settings) :
    (r.image settings).exports.map Export.name =
      if settings.exportFunctions then r.names else [] := by
  unfold image
  split
  · rw [List.mapIdx_eq_zipIdx_map, List.map_map]
    exact List.zipIdx_map_fst 0 r.names
  · rfl

end Registry

/-! ## Programs -/

/-- The names that the functions of a program are registered under. -/
def qualifiedNames (program : List Module) : List String :=
  (flatten program).map fun (moduleName, f) => qualifiedName moduleName f.name

/-- All functions of a program are assembled, and what they are assembled to is valid. -/
def ValidProgram (program : List Module) : Prop :=
  ∀ m ∈ program, ∀ f ∈ m.functions, ∃ parts, f.assembled = .ok parts ∧ parts.Valid {}

/-- Valid functions were added to a registry under some names. -/
structure Registry.Extended (r r' : Registry) (names : List String) : Prop where
  consistent : r'.Consistent
  sound : r'.Sound
  names_eq : r'.names = r.names ++ names

theorem assembleAll_eq_ok (moduleName : String) {fs : List Function}
    (h : ∀ f ∈ fs, ∃ parts, f.assembled = .ok parts ∧ parts.Valid {}) {r : Registry}
    (hr : r.Consistent) (hs : r.Sound) :
    ∃ r', (assembleAll moduleName fs).on r = (.ok (), r') ∧
      r.Extended r' (fs.map fun f => qualifiedName moduleName f.name) := by
  induction fs generalizing r with
  | nil => exact ⟨r, rfl, hr, hs, (List.append_nil _).symm⟩
  | cons f fs ih =>
    obtain ⟨parts, hparts, hvalid⟩ := h f List.mem_cons_self
    have hassemble := Function.assemble_of_assembled hparts moduleName r
    obtain ⟨r', hon, hext⟩ := ih (fun f hf => h f (List.mem_cons_of_mem _ hf))
      (hr.addFunction (qualifiedName moduleName f.name) parts.type parts.locals parts.body)
      (hr.sound_addFunction hs (qualifiedName moduleName f.name) hvalid
        (Function.plain_of_assembled hparts))
    refine ⟨r', ?_, hext.consistent, hext.sound, ?_⟩
    · rw [assembleAll, Assembling.on_bind, hassemble]
      exact hon
    · rw [hext.names_eq, Registry.names_addFunction, List.append_assoc]
      rfl

theorem assembleProgram_eq_ok {program : List Module} (h : ValidProgram program) {r : Registry}
    (hr : r.Consistent) (hs : r.Sound) :
    ∃ r', (assembleProgram program).on r = (.ok (), r') ∧
      r.Extended r' (qualifiedNames program) := by
  induction program generalizing r with
  | nil => exact ⟨r, rfl, hr, hs, (List.append_nil _).symm⟩
  | cons m ms ih =>
    obtain ⟨r₁, hon₁, hext₁⟩ := assembleAll_eq_ok m.name (h m List.mem_cons_self) hr hs
    obtain ⟨r₂, hon₂, hext₂⟩ := ih (fun m hm => h m (List.mem_cons_of_mem _ hm)) hext₁.consistent
      hext₁.sound
    refine ⟨r₂, ?_, hext₂.consistent, hext₂.sound, ?_⟩
    · rw [assembleProgram, Assembling.on_bind, Module.assemble, hon₁]
      exact hon₂
    · rw [hext₂.names_eq, hext₁.names_eq, List.append_assoc]
      simp [qualifiedNames, flatten]

end TreeWasm
