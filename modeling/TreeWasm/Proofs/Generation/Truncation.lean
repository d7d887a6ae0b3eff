-- SUMMARY: Where a generated binary may be cut off so that what is left is still a module.
import TreeWasm.Proofs.Generation.Settings
import TreeWasm.Proofs.Validation.Beginnings

/-!
# Truncated output

A validated binary that is cut off is in general no module any more, and validation says so. There
are a few places at which it may be cut: behind the header, behind the types, which nothing has to
follow, and behind the code, which only names can follow (`generate_truncated`). Behind the
functions or the exports it may not, as the functions have no code there.
-/

namespace TreeWasm

open Wasm Wasm.Validation

/-! ## Places -/

/-- The first `n` bytes of the sections end with a section of this id. -/
def EndsSection (sections : List (UInt8 × List UInt8)) (id : UInt8) (n : Nat) : Prop :=
  ∃ k, sections[k]?.map Prod.fst = some id ∧ n = (encodeSections (sections.take (k + 1))).length

/-- The first `n` bytes of the sections are the header, end with the types or with the code, or are
all that there are. -/
def MayEnd (sections : List (UInt8 × List UInt8)) (n : Nat) : Prop :=
  n = header.length ∨ EndsSection sections 0x01 n ∨ EndsSection sections 0x0a n ∨
    n = (encodeSections sections).length

/-- The ids of the sections of a generated binary. -/
def sectionIds (program : List Module) (settings : Settings) : List UInt8 :=
  if (qualified program).isEmpty then []
  else
    [0x01, 0x03] ++ (if settings.exportFunctions then [0x07] else []) ++
      0x0a :: if settings.emitNameSection then [0x00] else []

/-- In this order of sections, the code of functions is missing just from the functions on. -/
theorem complete_sectionIds (program : List Module) (settings : Settings) {k : Nat}
    (hk : k < (sectionIds program settings).length) :
    Complete ((sectionIds program settings).take (k + 1)) ↔
      (sectionIds program settings)[k]? = some 0x01 ∨
        (sectionIds program settings)[k]? = some 0x0a ∨
          k + 1 = (sectionIds program settings).length := by
  unfold sectionIds at hk ⊢
  by_cases hnone : (qualified program).isEmpty
  · rw [if_pos hnone] at hk
    cases hk
  · rw [if_neg hnone] at hk ⊢
    generalize settings.exportFunctions = exported, settings.emitNameSection = named at hk ⊢
    cases exported <;> cases named <;> revert k <;> decide

/-- Whole sections without anything missing are those that may end. -/
theorem mayEnd_iff {program : List Module} {settings : Settings}
    {sections : List (UInt8 × List UInt8)}
    (hids : sections.map Prod.fst = sectionIds program settings) (n : Nat) :
    (∃ k ≤ sections.length, n = (encodeSections (sections.take k)).length ∧
      Complete ((sections.take k).map Prod.fst)) ↔ MayEnd sections n := by
  have hcomplete {k : Nat} (hk : k < sections.length) :
      Complete ((sections.take (k + 1)).map Prod.fst) ↔
        sections[k]?.map Prod.fst = some 0x01 ∨ sections[k]?.map Prod.fst = some 0x0a ∨
          k + 1 = sections.length := by
    have hk' : k < (sectionIds program settings).length := by rwa [← hids, List.length_map]
    have h := complete_sectionIds program settings hk'
    rwa [← hids, List.length_map, List.getElem?_map, ← List.map_take] at h
  have hlt {k : Nat} {id : UInt8} (h : sections[k]?.map Prod.fst = some id) :
      k < sections.length := by
    obtain ⟨_, hget, -⟩ := Option.map_eq_some_iff.1 h
    exact (List.getElem?_eq_some_iff.1 hget).1
  constructor
  · rintro ⟨_ | k, hk, rfl, hk'⟩
    · exact .inl rfl
    · rcases (hcomplete hk).1 hk' with htypes | hcode | hall
      · exact .inr (.inl ⟨k, htypes, rfl⟩)
      · exact .inr (.inr (.inl ⟨k, hcode, rfl⟩))
      · rw [hall, List.take_length]
        exact .inr (.inr (.inr rfl))
  · rintro (rfl | ⟨k, htypes, rfl⟩ | ⟨k, hcode, rfl⟩ | rfl)
    · exact ⟨0, Nat.zero_le _, rfl, nofun⟩
    · exact ⟨k + 1, hlt htypes, rfl, (hcomplete (hlt htypes)).2 (.inl htypes)⟩
    · exact ⟨k + 1, hlt hcode, rfl, (hcomplete (hlt hcode)).2 (.inr (.inl hcode))⟩
    · refine ⟨sections.length, Nat.le_refl _, by rw [List.take_length], ?_⟩
      cases hlength : sections.length with
      | zero => exact nofun
      | succ k => exact (hcomplete (hlength ▸ Nat.lt_succ_self k)).2 (.inr (.inr hlength.symm))

/-! ## Generated binaries -/

section

variable {program : List Module} {settings : Settings} {bytes : List UInt8}

/-- Bytes that come out have passed validation. -/
theorem generate_eq_ok_of_validated (hv : settings.validateOutput = true)
    (h : generate program settings = .ok bytes) :
    verdict (qualified program) = .ok () ∧ (registryOf program).encode settings = bytes ∧
      check bytes = .ok () := by
  rw [generate_eq] at h
  obtain ⟨⟨⟩, hok, h⟩ := bind_eq_ok_iff.1 h
  obtain rfl := emitted_eq_ok h
  rcases emitted_cases program settings with ⟨-, hpass⟩ | ⟨-, -, d, herror, -⟩
  · exact ⟨hok, rfl, hpass hv⟩
  · cases h.symm.trans herror

/-- Of bytes that have passed validation, the beginnings that pass it are known by the sections. -/
theorem exists_endsComplete (hv : settings.validateOutput = true)
    (h : generate program settings = .ok bytes) :
    ∃ sections, bytes = encodeSections sections ∧
      sections.map Prod.fst = sectionIds program settings ∧
        EndsComplete {} {} 8 [] sections := by
  obtain ⟨hok, rfl, hcheck⟩ := generate_eq_ok_of_validated hv h
  by_cases hnone : (qualified program).isEmpty
  · refine ⟨[], encode_registryOf_of_isEmpty hnone settings, ?_, ?_⟩
    · rw [sectionIds, if_pos hnone]
      rfl
    · exact .nil (iff_of_true ⟨rfl, rfl, rfl⟩ (by decide))
  · obtain ⟨ht, hf⟩ := registryOf_ne_empty hok (Bool.eq_false_iff.2 hnone)
    let image := (registryOf program).image settings
    refine ⟨image.sections, image.encode_eq, ?_, ?_⟩
    · rw [Registry.sections_image ht hf, sectionIds, if_neg hnone]
      rcases settings with ⟨_ | _, _ | _, _, _⟩ <;> rfl
    · have hcheck' : check (encodeSections image.sections) = .ok () := by
        rw [← image.encode_eq]
        exact hcheck
      have htypes : image.types ≠ [] := by simpa [image, Registry.image] using ht
      have hfunctions : image.functions ≠ [] := by simpa [image, Registry.image] using hf
      exact image.endsComplete_sections ((registryOf program).counts_image settings) hfunctions
        htypes (passing_of_check hcheck')

/-- Cut off anywhere, a binary that was validated passes validation again exactly if it is cut
behind the header, the types or the code, or not at all. Anywhere else there is an error, of the
kind of a broken promise. -/
theorem generate_truncated (hv : settings.validateOutput = true)
    (h : generate program settings = .ok bytes) :
    ∃ sections, bytes = encodeSections sections ∧
      sections.map Prod.fst = sectionIds program settings ∧
      ∀ n ≤ bytes.length, ∀ subject nameOf,
        (validate subject nameOf (bytes.take n) = .ok () ↔ MayEnd sections n) ∧
        (¬MayEnd sections n → ∃ context,
          validate subject nameOf (bytes.take n) = .error (.unreachable context)) := by
  obtain ⟨sections, rfl, hids, hends⟩ := exists_endsComplete hv h
  refine ⟨sections, rfl, hids, fun n hn subject nameOf => ?_⟩
  have hiff := (check_take_iff hends hn).trans (mayEnd_iff hids n)
  unfold validate
  cases hcheck : check ((encodeSections sections).take n) with
  | ok =>
    have hmay := hiff.1 hcheck
    exact ⟨iff_of_true rfl hmay, fun hnot => (hnot hmay).elim⟩
  | error fault =>
    have hnot : ¬MayEnd sections n := fun hmay => by
      rw [hiff.2 hmay] at hcheck
      cases hcheck
    exact ⟨iff_of_false nofun hnot, fun _ => ⟨_, rfl⟩⟩

end

/-- Two functions that are not exported make up sections of types, functions, code and names. -/
theorem generate_colliding_truncated :
    ∃ bytes, generate colliding { validateOutput := true } = .ok bytes ∧
      ∃ sections, bytes = encodeSections sections ∧
        sections.map Prod.fst = [0x01, 0x03, 0x0a, 0x00] ∧
        ∀ n ≤ bytes.length, ∀ subject nameOf,
          (validate subject nameOf (bytes.take n) = .ok () ↔ MayEnd sections n) ∧
          (¬MayEnd sections n → ∃ context,
            validate subject nameOf (bytes.take n) = .error (.unreachable context)) := by
  obtain ⟨-, hext⟩ := validProgram_colliding.on_assembleProgram
  have hlimits := withinLimits_colliding false
  have hsound := hext.consistent.sound_image hext.sound
    (Registry.size_types_of_sizesFit hlimits.toSizesFit) { validateOutput := true }
  have hcheck := (Image.check_encode_eq_ok_iff hsound hlimits).2 .nil
  have hplain : generate colliding {} = .ok ((registryOf colliding).encode {}) :=
    (generate_eq_ok_iff rfl).2 ⟨rfl, rfl⟩
  rcases @generate_validated_of_ok colliding {} _ hplain with ⟨hgenerate, -⟩ | ⟨hfail, -⟩
  · exact ⟨_, hgenerate, generate_truncated rfl hgenerate⟩
  · exact (hfail hcheck).elim

end TreeWasm
