-- SUMMARY: The binary of two programs one after the other, put together from the binaries of both.
import Mathlib.Data.List.Perm.Subperm
import TreeWasm.Proofs.Generation.Refusal

/-!
# Concatenated programs

Programs are compiled independently of what stands before them. The code of two programs one after
the other is that of the first followed by that of the second, byte for byte (`generate_append`).
Only indices change: those of functions move up by the number of functions in front, and those of
types are looked up in a table that both programs share. The entries that the bytes of a binary
consist of are put together accordingly (`Joins`).
-/

namespace TreeWasm

open Wasm

/-- The third entries are the first and the second ones, one behind the other: code byte for byte,
and signatures through a table that has those of both, the first ones in front. Functions of the
second ones get indices behind those of the first. -/
structure Joins (first second joined : Entries) : Prop where
  codes : joined.codes = first.codes ++ second.codes
  types : first.types <+: joined.types
  nodup_types : joined.types.Nodup
  mem_types (type : FuncType) :
    type ∈ joined.types ↔ some type ∈ first.signatures ∨ some type ∈ second.signatures
  signatures : joined.signatures = first.signatures ++ second.signatures
  exports : joined.exports = first.exports ++
    second.exports.map fun (name, index) => (name, index + .ofNat first.functions.length)
  names : joined.names = first.names ++
    second.names.map fun (index, name) => (index + .ofNat first.functions.length, name)

variable {settings : Settings} {first second joined : Entries} {log log' : List Registration}

theorem Emits.length_functions (h : Emits settings log first) :
    first.functions.length = log.length := by
  rw [h.functions, List.length_map]

/-- What is numbered in a list moves up by the length of what is put in front of it. -/
theorem mapIdx_append_shift {make : Nat → α → β} {shift : β → β} (xs ys : List α)
    (h : ∀ i a, shift (make i a) = make (i + xs.length) a) :
    (xs ++ ys).mapIdx make = xs.mapIdx make ++ (ys.mapIdx make).map shift := by
  rw [List.mapIdx_append]
  refine congrArg (xs.mapIdx make ++ ·) (List.ext_getElem? fun i => ?_)
  simp [List.getElem?_mapIdx, Function.comp_def, h]

/-- A table of other signatures is no longer than one that has them as well. -/
theorem Emits.length_types_le (h : Emits settings log second)
    (hj : ∀ g ∈ log, g.type ∈ joined.types) : second.types.length ≤ joined.types.length := by
  refine (List.subperm_of_subset h.nodup_types fun type ht => ?_).length_le
  obtain ⟨g, hg, rfl⟩ := (h.mem_types type).1 ht
  exact hj g hg

/-- The entries of two logs, and of both one after the other, as long as type indices do not
repeat. -/
theorem Emits.joins (h₁ : Emits settings log first) (h₂ : Emits settings log' second)
    (h : Emits settings (log ++ log') joined) (htypes : first.types <+: joined.types)
    (hsize : joined.types.length ≤ UInt32.size) : Joins first second joined := by
  have hmem (g : Registration) (hg : g ∈ log ++ log') : g.type ∈ joined.types :=
    (h.mem_types g.type).2 ⟨g, hg, rfl⟩
  have hfirst := h₁.signatures (Nat.le_trans htypes.length_le hsize)
  have hsecond := h₂.signatures
    (Nat.le_trans (h₂.length_types_le fun g hg => hmem g (List.mem_append_right _ hg)) hsize)
  exact {
    codes := by rw [h.codes, h₁.codes, h₂.codes, List.map_append]
    types := htypes
    nodup_types := h.nodup_types
    mem_types := fun type => by
      rw [h.mem_types, hfirst, hsecond]
      simp [or_and_right, exists_or]
    signatures := by rw [h.signatures hsize, hfirst, hsecond, List.map_append]
    exports := by
      rw [h.exports, h₁.exports, h₂.exports, h₁.length_functions]
      split
      · exact mapIdx_append_shift _ _ fun _ _ => by simp
      · rfl
    names := by
      rw [h.names, h₁.names, h₂.names, h₁.length_functions]
      split
      · exact mapIdx_append_shift _ _ fun _ _ => by simp
      · rfl }

/-! ## Programs -/

theorem qualified_append (program other : List Module) :
    qualified (program ++ other) = qualified program ++ qualified other := List.flatMap_append

theorem generate_eq_ok_iff {program : List Module} (hv : settings.validateOutput = false)
    {bytes : List UInt8} :
    generate program settings = .ok bytes ↔
      verdict (qualified program) = .ok () ∧ (registryOf program).encode settings = bytes := by
  rw [generate_eq]
  unfold emitted
  rw [hv]
  cases verdict (qualified program) with
  | error d => exact ⟨nofun, fun h => nomatch h.1⟩
  | ok => exact ⟨fun h => ⟨rfl, Except.ok.inj h⟩, fun h => congrArg _ h.2⟩

theorem generate_eq_error_iff {program : List Module} (hv : settings.validateOutput = false)
    {d : Diagnostic} :
    generate program settings = .error d ↔ verdict (qualified program) = .error d := by
  rw [generate_eq]
  unfold emitted
  rw [hv]
  cases verdict (qualified program) with
  | error d' =>
    exact ⟨fun h => congrArg _ (Except.error.inj h), fun h => congrArg _ (Except.error.inj h)⟩
  | ok => exact ⟨nofun, nofun⟩

theorem joins_registryOf {program : List Module} (h : verdict (qualified program) = .ok ())
    (other : List Module) {settings : Settings}
    (hsizes : ((registryOf (program ++ other)).image settings).SizesFit) :
    Joins ((registryOf program).entries settings) ((registryOf other).entries settings)
      ((registryOf (program ++ other)).entries settings) := by
  have hlog : accepted (qualified (program ++ other)) =
      accepted (qualified program) ++ accepted (qualified other) := by
    rw [qualified_append, accepted_append, h]
    rfl
  have hgrows : (registryOf program).GrowsTo (registryOf (program ++ other)) := by
    rw [registryOf_eq, registryOf_eq, hlog, Registry.registerAll_append]
    exact Registry.growsTo_registerAll _ _
  refine (emits_registryOf program settings).joins (emits_registryOf other settings) ?_ hgrows.types
    (Registry.size_types_of_sizesFit hsizes)
  rw [← hlog]
  exact emits_registryOf (program ++ other) settings

/-- Two programs that are accepted without validation are accepted together, as long as the sizes of
the sections are integers of 32 bits. The bytes of all three are sections of entries, and those of
both together are put together from those of each: the code of the first is followed by that of the
second, byte for byte; the types of the first are followed by those that only the second needs;
functions keep their signatures, and those of the second are numbered behind those of the first. If
one of the programs is refused, both together are, for the reason that the first one is refused for,
or else for that of the second. -/
theorem generate_append (program other : List Module) {settings : Settings}
    (hv : settings.validateOutput = false) :
    (∀ bytes bytes', generate program settings = .ok bytes → generate other settings = .ok bytes' →
      bytes = encodeSections ((registryOf program).entries settings).sections ∧
      bytes' = encodeSections ((registryOf other).entries settings).sections ∧
      (((registryOf (program ++ other)).image settings).SizesFit →
        generate (program ++ other) settings =
          .ok (encodeSections ((registryOf (program ++ other)).entries settings).sections) ∧
        Joins ((registryOf program).entries settings) ((registryOf other).entries settings)
          ((registryOf (program ++ other)).entries settings))) ∧
    (∀ d, generate program settings = .error d → generate (program ++ other) settings = .error d) ∧
    ∀ bytes d, generate program settings = .ok bytes → generate other settings = .error d →
      generate (program ++ other) settings = .error d := by
  have hverdict : verdict (qualified (program ++ other)) =
      (do verdict (qualified program); verdict (qualified other)) := by
    rw [qualified_append, verdict_append]
  refine ⟨?_, ?_, ?_⟩
  · intro bytes bytes' h₁ h₂
    obtain ⟨hok₁, rfl⟩ := (generate_eq_ok_iff hv).1 h₁
    obtain ⟨hok₂, rfl⟩ := (generate_eq_ok_iff hv).1 h₂
    refine ⟨Registry.encode_eq _ _, Registry.encode_eq _ _, fun hsizes => ⟨?_, ?_⟩⟩
    · refine (generate_eq_ok_iff hv).2 ⟨?_, Registry.encode_eq _ _⟩
      rw [hverdict, hok₁, hok₂]
      rfl
    · exact joins_registryOf hok₁ other hsizes
  · intro d h₁
    rw [generate_eq_error_iff hv, hverdict, (generate_eq_error_iff hv).1 h₁]
    rfl
  · intro bytes d h₁ h₂
    obtain ⟨hok₁, -⟩ := (generate_eq_ok_iff hv).1 h₁
    rw [generate_eq_error_iff hv, hverdict, hok₁, (generate_eq_error_iff hv).1 h₂]
    rfl

/-- A function in two signatures, of which `leaving` has one. -/
def overloaded : List Module :=
  [⟨"leav", [⟨"ing", [], .float64, [], .constFloat64 ⟨0⟩⟩,
    ⟨"ing", [.int32], .int32, [], .localGet 0 .int32⟩]⟩]

theorem sizesFit_leaving_overloaded : ((registryOf ([⟨"", [leaving]⟩] ++ overloaded)).image
    { exportFunctions := true }).SizesFit := by
  have htypes : (registryOf ([⟨"", [leaving]⟩] ++ overloaded)).types.toList =
      [⟨[.i32], [.i32]⟩, ⟨[], [.f64]⟩] := by
    rw [registryOf_eq, Registry.Reachable.empty.consistent.types_registerAll]
    rfl
  have hfunctions := (records_registryOf ([⟨"", [leaving]⟩] ++ overloaded)).functions_eq
  rw [htypes] at hfunctions
  unfold Registry.image Registry.names
  rw [htypes, hfunctions]
  constructor <;> decide +kernel

/-- The last function shares its type with the first, and has an index behind it. -/
theorem generate_leaving_overloaded :
    (∃ bytes, generate ([⟨"", [leaving]⟩] ++ overloaded) { exportFunctions := true } = .ok bytes) ∧
    Joins ((registryOf [⟨"", [leaving]⟩]).entries { exportFunctions := true })
      ((registryOf overloaded).entries { exportFunctions := true })
      ((registryOf ([⟨"", [leaving]⟩] ++ overloaded)).entries { exportFunctions := true }) ∧
    generate (overloaded ++ [⟨"", [⟨"", [], .nothing, [], .constInt32 0⟩]⟩]) {} =
      .error ((Refusal.unrepresentable .nothing).diagnose.withEntry .functionName "") := by
  have hexporting : ({ exportFunctions := true } : Settings).validateOutput = false := rfl
  have hdefault : ({} : Settings).validateOutput = false := rfl
  obtain ⟨hjoined, -, -⟩ := generate_append [⟨"", [leaving]⟩] overloaded hexporting
  obtain ⟨-, -, hfits⟩ := hjoined _ _ ((generate_eq_ok_iff rfl).2 ⟨rfl, rfl⟩)
    ((generate_eq_ok_iff rfl).2 ⟨rfl, rfl⟩)
  obtain ⟨hbytes, hjoins⟩ := hfits sizesFit_leaving_overloaded
  obtain ⟨-, -, hrefused⟩ :=
    generate_append overloaded [⟨"", [⟨"", [], .nothing, [], .constInt32 0⟩]⟩] hdefault
  exact ⟨⟨_, hbytes⟩, hjoins, hrefused _ _ ((generate_eq_ok_iff rfl).2 ⟨rfl, rfl⟩)
    ((generate_eq_error_iff rfl).2 rfl)⟩

end TreeWasm
