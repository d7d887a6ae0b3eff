-- SUMMARY: When a program of valid functions yields a validated binary: exactly if no name is exported twice.
import TreeWasm.Generation
import TreeWasm.Proofs.Registry.Assembly
import TreeWasm.Proofs.Registry.Log

/-!
# Generation of validated binaries

Functions that are valid one by one make up a module that is valid, whatever they are called, unless
their names are exported. Nothing keeps different functions of different modules from having one
qualified name, and a name that is exported twice is all that validation has left to find
(`generate_eq_ok_iff_nodup`).
-/

namespace TreeWasm

open Wasm Wasm.Validation

/-- The registry that a program is assembled to. -/
def registryOf (program : List Module) : Registry := ((assembleProgram program).on {}).2

theorem ValidProgram.on_assembleProgram {program : List Module} (h : ValidProgram program) :
    (assembleProgram program).on {} = (.ok (), registryOf program) ∧
      Registry.Extended {} (registryOf program) (qualifiedNames program) := by
  obtain ⟨r, hon, hext⟩ := assembleProgram_eq_ok h Registry.Reachable.empty.consistent
    Registry.sound_empty
  have hr : registryOf program = r := congrArg Prod.snd hon
  rw [hr]
  exact ⟨hon, hext⟩

/-- Validation has no other kind of failure. -/
theorem Registry.validate_eq (r : Registry) (bytes : List UInt8) :
    r.validate bytes = .ok () ∧ check bytes = .ok () ∨
      check bytes ≠ .ok () ∧ ∃ d, r.validate bytes = .error d ∧ d.kind = .unreachable := by
  unfold Registry.validate Validation.validate
  cases check bytes with
  | ok => exact .inl ⟨rfl, rfl⟩
  | error fault => exact .inr ⟨nofun, _, rfl, rfl⟩

/-- Only validation stands between a registry and its bytes. -/
theorem ValidProgram.generate_eq {program : List Module} (h : ValidProgram program)
    {settings : Settings} (hv : settings.validateOutput = true) :
    generate program settings =
      (do (registryOf program).validate ((registryOf program).encode settings)
          return (registryOf program).encode settings) := by
  unfold generate respond
  rw [h.on_assembleProgram.1]
  simp only [hv, if_true]

/-- If all functions of a program are assembled and each of them is valid by itself, and if no limit
is exceeded, then a validated binary comes out exactly if nothing is exported or all qualified names
are different. Otherwise there is an error instead, of the kind of a broken promise. In any case the
indices of types and exports are in range, and there is code for every function. -/
theorem generate_eq_ok_iff_nodup {program : List Module} {settings : Settings}
    (hv : settings.validateOutput = true) (h : ValidProgram program)
    (hl : ((registryOf program).image settings).WithinLimits) :
    ((∃ bytes, generate program settings = .ok bytes) ↔
      settings.exportFunctions = false ∨ (qualifiedNames program).Nodup) ∧
    (¬(settings.exportFunctions = false ∨ (qualifiedNames program).Nodup) →
      ∃ d, generate program settings = .error d ∧ d.kind = .unreachable) ∧
    (∀ bytes, generate program settings = .ok bytes →
      bytes = ((registryOf program).image settings).encode) ∧
    (∀ index ∈ ((registryOf program).image settings).functions,
      index < ((registryOf program).image settings).types.length) ∧
    ((registryOf program).image settings).functions.length =
      ((registryOf program).image settings).codes.length ∧
    ∀ e ∈ ((registryOf program).image settings).exports,
      e.function < ((registryOf program).image settings).functions.length := by
  obtain ⟨-, hext⟩ := h.on_assembleProgram
  have hsize := Registry.size_types_of_sizesFit hl.toSizesFit
  have hsound := hext.consistent.sound_image hext.sound hsize settings
  have hnames : (((registryOf program).image settings).exports.map Export.name).Nodup ↔
      settings.exportFunctions = false ∨ (qualifiedNames program).Nodup := by
    have hall : (registryOf program).names = qualifiedNames program := hext.names_eq
    rw [Registry.exportNames_image, hall]
    cases settings.exportFunctions <;> simp
  have hcheck : check ((registryOf program).encode settings) = .ok () ↔ _ :=
    (Image.check_encode_eq_ok_iff hsound hl).trans hnames
  have hgenerate := h.generate_eq hv
  rcases (registryOf program).validate_eq ((registryOf program).encode settings) with
    ⟨hok, hpass⟩ | ⟨hfail, d, herror, hkind⟩
  · rw [hok] at hgenerate
    have hnodup := hcheck.1 hpass
    refine ⟨⟨?_, ?_⟩, ?_, ?_, hsound.typeIndices, hsound.counts, hsound.exported⟩
    · intro _
      exact hnodup
    · intro _
      exact ⟨_, hgenerate⟩
    · intro hn
      exact (hn hnodup).elim
    · intro bytes hb
      exact (Except.ok.inj (hgenerate.symm.trans hb)).symm
  · rw [herror] at hgenerate
    have hnodup := mt hcheck.2 hfail
    have hnone (bytes : List UInt8) : generate program settings ≠ .ok bytes := by
      rw [hgenerate]
      exact nofun
    refine ⟨⟨?_, ?_⟩, ?_, ?_, hsound.typeIndices, hsound.counts, hsound.exported⟩
    · rintro ⟨bytes, hb⟩
      exact (hnone bytes hb).elim
    · intro hn
      exact (hnodup hn).elim
    · intro _
      exact ⟨d, hgenerate, hkind⟩
    · intro bytes hb
      exact (hnone bytes hb).elim

/-- Two functions that share the qualified name "abc". -/
def colliding : List Module :=
  [⟨"ab", [⟨"c", [], .int32, [], .constInt32 1⟩]⟩, ⟨"a", [⟨"bc", [], .int32, [], .constInt32 2⟩]⟩]

theorem registryOf_colliding :
    (registryOf colliding).types = #[⟨[], [.i32]⟩] ∧
    (registryOf colliding).functions =
      #[⟨"abc", 0, [], .constI32 1⟩, ⟨"abc", 0, [], .constI32 2⟩] :=
  Registry.registerAll_pair ⟨"abc", ⟨[], [.i32]⟩, [], .constI32 1⟩
    ⟨"abc", ⟨[], [.i32]⟩, [], .constI32 2⟩ rfl

theorem validProgram_colliding : ValidProgram colliding := by
  intro m hm f hf
  simp [colliding] at hm
  rcases hm with rfl | rfl
  · simp at hf
    subst hf
    exact ⟨⟨⟨[], [.i32]⟩, [], .constI32 1⟩, rfl, rfl⟩
  · simp at hf
    subst hf
    exact ⟨⟨⟨[], [.i32]⟩, [], .constI32 2⟩, rfl, rfl⟩

theorem withinLimits_colliding (exported : Bool) : ((registryOf colliding).image
    { validateOutput := true, exportFunctions := exported }).WithinLimits := by
  obtain ⟨htypes, hfunctions⟩ := registryOf_colliding
  unfold Registry.image Registry.names
  rw [htypes, hfunctions]
  cases exported <;> exact {
    types := by decide +kernel
    functions := by decide +kernel
    exports := by decide +kernel
    codes := by decide +kernel
    names := by decide +kernel
    typeCount := by decide +kernel
    functionCount := by decide +kernel
    exportCount := by decide +kernel
    values := by decide +kernel
    slots := fun ht hc => by
      have hslots : ∀ t ∈ [(⟨[], [.i32]⟩ : FuncType)],
          ∀ c ∈ [Registry.codeOf ⟨"abc", 0, [], .constI32 1⟩,
            Registry.codeOf ⟨"abc", 0, [], .constI32 2⟩], (c.slots t).length ≤ maxLocals := by
        decide +kernel
      exact hslots _ (Image.mem_types_of_typeOf? ht) _ (List.mem_of_getElem? hc)
    exportNames := by decide +kernel
    exportWeight := by decide +kernel }

/-- A validated binary of the two comes out as long as they are not exported. -/
theorem generate_colliding :
    (∃ bytes, generate colliding { validateOutput := true } = .ok bytes) ∧
    ∃ d, generate colliding { validateOutput := true, exportFunctions := true } = .error d ∧
      d.kind = .unreachable := by
  have hnodup : ¬(qualifiedNames colliding).Nodup := by decide
  have hpass := generate_eq_ok_iff_nodup (by rfl) validProgram_colliding
    (withinLimits_colliding false)
  have hfail := generate_eq_ok_iff_nodup (by rfl) validProgram_colliding
    (withinLimits_colliding true)
  exact ⟨hpass.1.2 (.inl rfl), hfail.2.1 (by simp [hnodup])⟩

end TreeWasm
