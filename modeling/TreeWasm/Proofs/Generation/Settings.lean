-- SUMMARY: What each of the settings changes about the outcome for a program.
import TreeWasm.Proofs.Binary.Sections
import TreeWasm.Proofs.Generation.Concatenation

/-!
# Settings

The settings do not touch the registry that a program is assembled to. Each of those that shape the
binary is for one section, which is there or not, and no other byte depends on it
(`Registry.sections_image`). Validation only decides whether the bytes are handed out, and showing
the listing decides nothing (`generate_settings`): it is shown as soon as all functions are
assembled, if the settings ask for it (`fst_respond_eq_some_iff`).
-/

namespace TreeWasm

open Wasm Wasm.Validation

/-! ## Sections under settings -/

/-- What the sections of a binary contain. The settings choose among the sections. -/
structure SectionContents where
  types : List UInt8
  functions : List UInt8
  exports : List UInt8
  code : List UInt8
  names : List UInt8

namespace SectionContents

/-- The section of exports, if it is asked for. -/
def exportSection (c : SectionContents) (settings : Settings) : List (UInt8 × List UInt8) :=
  if settings.exportFunctions then [(0x07, c.exports)] else []

/-- The custom section of names, if it is asked for. -/
def nameSection (c : SectionContents) (settings : Settings) : List (UInt8 × List UInt8) :=
  if settings.emitNameSection then [(0x00, c.names)] else []

theorem fst_of_mem_nameSection (c : SectionContents) {settings : Settings}
    {s : UInt8 × List UInt8} (h : s ∈ c.nameSection settings) : s.1 = 0x00 := by
  unfold nameSection at h
  split at h
  · rw [List.mem_singleton.1 h]
  · cases h

/-- The sections of a binary that has functions. -/
def sections (c : SectionContents) (settings : Settings) : List (UInt8 × List UInt8) :=
  [(0x01, c.types), (0x03, c.functions)] ++ c.exportSection settings ++
    ((0x0a, c.code) :: c.nameSection settings)

/-- Names come last. -/
theorem sections_with_names (c : SectionContents) (settings : Settings) :
    c.sections { settings with emitNameSection := true } =
      c.sections { settings with emitNameSection := false } ++ [(0x00, c.names)] := by
  simp [sections, exportSection, nameSection]

end SectionContents

namespace Registry

/-- What the sections of the binary of a registry contain, whatever the settings are. -/
def sectionContents (r : Registry) : SectionContents where
  types := encodeVec (r.types.toList.map FuncType.encode)
  functions := encodeVec (r.functions.toList.map fun f => Leb128.unsigned f.typeIndex.toNat)
  exports := encodeVec ((r.names.mapIdx fun i name => ⟨name, indexAt i⟩).map Export.encode)
  code := encodeVec (r.functions.toList.map fun f => encodeSized (codeOf f).encode)
  names := encodeFunctionNames (r.names.mapIdx fun i name => (indexAt i, name))

/-- Exports and names are sections of their own, and the others do not depend on the settings. -/
theorem sections_image {r : Registry} (ht : r.types ≠ #[]) (hf : r.functions ≠ #[])
    (settings : Settings) :
    (r.image settings).sections = r.sectionContents.sections settings := by
  have hn : r.names ≠ [] := by simpa [names] using hf
  have hexports : sectionOf 0x07 ((r.image settings).exports.map Export.encode) =
      r.sectionContents.exportSection settings := by
    unfold SectionContents.exportSection
    cases h : settings.exportFunctions <;> simp [image, h, sectionOf, hn, sectionContents]
  have hnames : sectionOfNames (r.image settings).names =
      r.sectionContents.nameSection settings := by
    unfold SectionContents.nameSection
    cases h : settings.emitNameSection <;> simp [image, h, sectionOfNames, hn, sectionContents]
  unfold Image.sections SectionContents.sections
  rw [hexports, hnames]
  simp [image, sectionOf, ht, hf, Function.comp_def, sectionContents]

end Registry

/-! ## Programs -/

/-- Without functions there is nothing but the header, whatever the settings. -/
theorem encode_registryOf_of_isEmpty {program : List Module} (h : (qualified program).isEmpty)
    (settings : Settings) : (registryOf program).encode settings = header := by
  rw [registryOf_eq, List.isEmpty_iff.1 h]
  rcases settings with ⟨_ | _, _ | _, _, _⟩ <;> rfl

/-- The registry of a program with functions has types and functions. -/
theorem registryOf_ne_empty {program : List Module} (hok : verdict (qualified program) = .ok ())
    (h : (qualified program).isEmpty = false) :
    (registryOf program).types ≠ #[] ∧ (registryOf program).functions ≠ #[] := by
  have hlog : accepted (qualified program) ≠ [] := by
    intro hnil
    have hlength := length_accepted hok
    rw [hnil] at hlength
    simp [List.eq_nil_of_length_eq_zero hlength.symm] at h
  obtain ⟨g, gs, hcons⟩ := List.exists_cons_of_ne_nil hlog
  constructor
  · intro hnil
    have hmem : g.type ∈ (registryOf program).types.toList := by
      rw [mem_types_registryOf, hcons]
      exact ⟨g, List.mem_cons_self, rfl⟩
    rw [hnil] at hmem
    cases hmem
  · intro hnil
    have hregistered := (records_registryOf program).registered
    rw [hnil, hcons] at hregistered
    cases hregistered

/-- A program with functions has sections of types, functions and code. -/
theorem encode_registryOf {program : List Module} (hok : verdict (qualified program) = .ok ())
    (h : (qualified program).isEmpty = false) (settings : Settings) :
    (registryOf program).encode settings =
      encodeSections ((registryOf program).sectionContents.sections settings) := by
  obtain ⟨ht, hf⟩ := registryOf_ne_empty hok h
  unfold Registry.encode
  rw [Image.encode_eq, Registry.sections_image ht hf]

section

variable {program : List Module} {settings : Settings} {bytes : List UInt8}

/-- Names are one custom section behind everything else. -/
theorem generate_with_names (hv : settings.validateOutput = false)
    (h : generate program { settings with emitNameSection := false } = .ok bytes) :
    generate program { settings with emitNameSection := true } =
      .ok (if (qualified program).isEmpty then bytes
        else bytes ++ encodeSection 0x00 (registryOf program).sectionContents.names) := by
  have hoff : { settings with emitNameSection := false }.validateOutput = false := hv
  have hon : { settings with emitNameSection := true }.validateOutput = false := hv
  obtain ⟨hok, rfl⟩ := (generate_eq_ok_iff hoff).1 h
  refine (generate_eq_ok_iff hon).2 ⟨hok, ?_⟩
  cases hfunctions : (qualified program).isEmpty with
  | true => simp [encode_registryOf_of_isEmpty hfunctions]
  | false =>
    rw [encode_registryOf hok hfunctions, encode_registryOf hok hfunctions,
      SectionContents.sections_with_names, encodeSections_append]
    simp

/-- Exports are one section in front of that of code. -/
theorem generate_with_exports (hv : settings.validateOutput = false)
    (h : generate program { settings with exportFunctions := false } = .ok bytes) :
    if (qualified program).isEmpty then
      generate program { settings with exportFunctions := true } = .ok bytes
    else
      bytes = encodeSections
        ((registryOf program).sectionContents.sections
          { settings with exportFunctions := false }) ∧
      generate program { settings with exportFunctions := true } = .ok (encodeSections
        ((registryOf program).sectionContents.sections
          { settings with exportFunctions := true })) := by
  have hoff : { settings with exportFunctions := false }.validateOutput = false := hv
  have hon : { settings with exportFunctions := true }.validateOutput = false := hv
  obtain ⟨hok, rfl⟩ := (generate_eq_ok_iff hoff).1 h
  cases hfunctions : (qualified program).isEmpty with
  | true =>
    refine (generate_eq_ok_iff hon).2 ⟨hok, ?_⟩
    rw [encode_registryOf_of_isEmpty hfunctions, encode_registryOf_of_isEmpty hfunctions]
  | false =>
    exact ⟨encode_registryOf hok hfunctions _,
      (generate_eq_ok_iff hon).2 ⟨hok, encode_registryOf hok hfunctions _⟩⟩

end

/-- The listing is shown exactly if the settings ask for it and all functions are assembled. -/
theorem fst_respond_eq_some_iff {program : List Module} {settings : Settings} {listing : String} :
    (respond program settings).1 = some listing ↔ settings.printModule = true ∧
      verdict (qualified program) = .ok () ∧ (registryOf program).listing = listing := by
  rw [respond_eq]
  cases verdict (qualified program) <;> simp

/-- The listing of the registry has no part in the outcome. -/
theorem generate_with_printModule (program : List Module) (settings : Settings) (shown : Bool) :
    generate program { settings with printModule := shown } = generate program settings := by
  rw [generate_eq, generate_eq]
  rfl

/-- With validation the bytes are those without it, or there are none. -/
theorem generate_validated (program : List Module) (settings : Settings) :
    generate program { settings with validateOutput := true } =
      (do
        let bytes ← generate program { settings with validateOutput := false }
        (registryOf program).validate bytes
        return bytes) := by
  rw [generate_eq, generate_eq]
  cases verdict (qualified program) <;> rfl

/-- Bytes that pass are handed out, and others are an error instead. -/
theorem generate_validated_of_ok {program : List Module} {settings : Settings} {bytes : List UInt8}
    (h : generate program { settings with validateOutput := false } = .ok bytes) :
    (generate program { settings with validateOutput := true } = .ok bytes ∧
        check bytes = .ok ()) ∨
      check bytes ≠ .ok () ∧ ∃ d,
        generate program { settings with validateOutput := true } = .error d ∧
          d.kind = .unreachable := by
  obtain ⟨hok, rfl⟩ := (generate_eq_ok_iff rfl).1 h
  have hsame : (registryOf program).encode { settings with validateOutput := true } =
      (registryOf program).encode { settings with validateOutput := false } := rfl
  have hcases := emitted_cases program { settings with validateOutput := true }
  have hgenerate : generate program { settings with validateOutput := true } =
      emitted program { settings with validateOutput := true } := generate_eq_emitted hok _
  rw [hsame, ← hgenerate] at hcases
  rcases hcases with ⟨hemitted, hpass⟩ | ⟨-, hfail, hrefused⟩
  · exact .inl ⟨hemitted, hpass rfl⟩
  · exact .inr ⟨hfail, hrefused⟩

/-- Without validation, all settings refuse the same programs for the same reasons. Names that are
asked for are one custom section behind everything else, and exports are one section between those
of functions and of code; of a program without functions there is neither. Apart from these two
sections no byte depends on the settings. Whether the listing is to be shown never matters. With
validation the outcome is the same bytes if they pass, and else an error of the kind of a broken
promise; what is refused without validation is refused with it. -/
theorem generate_settings (program : List Module) :
    (∀ settings settings' : Settings, settings.validateOutput = false →
      settings'.validateOutput = false → ∀ d,
        generate program settings = .error d ↔ generate program settings' = .error d) ∧
    (∃ names, ∀ (settings : Settings) bytes, settings.validateOutput = false →
      generate program { settings with emitNameSection := false } = .ok bytes →
      generate program { settings with emitNameSection := true } =
        .ok (if (qualified program).isEmpty then bytes else bytes ++ encodeSection 0x00 names)) ∧
    (∃ types functions exports code, ∀ (settings : Settings) bytes,
      settings.validateOutput = false →
      generate program { settings with exportFunctions := false } = .ok bytes →
      if (qualified program).isEmpty then
        generate program { settings with exportFunctions := true } = .ok bytes
      else ∃ behind, (∀ s ∈ behind, s.1 = 0x00) ∧
        bytes = encodeSections ([(0x01, types), (0x03, functions)] ++ (0x0a, code) :: behind) ∧
        generate program { settings with exportFunctions := true } =
          .ok (encodeSections
            ([(0x01, types), (0x03, functions)] ++ (0x07, exports) :: (0x0a, code) :: behind))) ∧
    (∀ settings : Settings, generate program { settings with printModule := true } =
      generate program { settings with printModule := false }) ∧
    ∀ settings : Settings,
      (∀ d, generate program { settings with validateOutput := false } = .error d →
        generate program { settings with validateOutput := true } = .error d) ∧
      ∀ bytes, generate program { settings with validateOutput := false } = .ok bytes →
        (generate program { settings with validateOutput := true } = .ok bytes ∧
          check bytes = .ok ()) ∨
        check bytes ≠ .ok () ∧ ∃ d,
          generate program { settings with validateOutput := true } = .error d ∧
            d.kind = .unreachable := by
  refine ⟨?_, ?_, ?_, ?_, ?_⟩
  · intro settings settings' hv hv' d
    rw [generate_eq_error_iff hv, generate_eq_error_iff hv']
  · exact ⟨_, fun _ _ hv h => generate_with_names hv h⟩
  · let c := (registryOf program).sectionContents
    refine ⟨c.types, c.functions, c.exports, c.code, fun settings bytes hv h => ?_⟩
    have hexports := generate_with_exports hv h
    split at hexports
    · next hnone => rwa [if_pos hnone]
    · next hsome =>
      rw [if_neg hsome]
      exact ⟨c.nameSection settings, fun _ hs => c.fst_of_mem_nameSection hs, hexports.1,
        hexports.2⟩
  · intro settings
    exact (generate_with_printModule program settings true).trans
      (generate_with_printModule program settings false).symm
  · intro settings
    refine ⟨fun d hd => ?_, fun bytes h => generate_validated_of_ok h⟩
    rw [generate_validated, hd]
    rfl

/-- Two functions that share a name are named all the same, and exported, both behind the same
sections. -/
theorem generate_settings_colliding :
    (∃ names bytes, generate colliding { emitNameSection := false } = .ok bytes ∧
      generate colliding {} = .ok (bytes ++ encodeSection 0x00 names)) ∧
    ∃ before exports code behind,
      generate colliding {} = .ok (encodeSections (before ++ (0x0a, code) :: behind)) ∧
      generate colliding { exportFunctions := true } =
        .ok (encodeSections (before ++ (0x07, exports) :: (0x0a, code) :: behind)) := by
  obtain ⟨-, ⟨names, hnames⟩, ⟨types, functions, exports, code, hexports⟩, -⟩ :=
    generate_settings colliding
  obtain ⟨bytes, hbytes⟩ : ∃ bytes, generate colliding { emitNameSection := false } = .ok bytes :=
    ⟨_, (generate_eq_ok_iff rfl).2 ⟨rfl, rfl⟩⟩
  have hnamed : generate colliding {} = .ok (bytes ++ encodeSection 0x00 names) :=
    hnames {} bytes rfl hbytes
  obtain ⟨behind, -, hplain, hexported⟩ := hexports {} _ rfl hnamed
  rw [hplain] at hnamed
  exact ⟨⟨names, bytes, hbytes, hplain ▸ hnamed⟩, _, exports, code, behind, hnamed, hexported⟩

end TreeWasm
