-- SUMMARY: Which function a fault in a generated binary is blamed on.
import TreeWasm.Proofs.Generation.Refusal
import TreeWasm.Proofs.Validation.Entries

/-!
# Blame

A fault is reported together with the name of the function that has code at its offset. The names
are those of the registry, which keeps the functions of a program in order under their qualified
names, and the code is found again in the bytes. The two agree at every offset (`generate_blames`):
a function is named exactly if the offset is that of a byte of its code, and none is named at the
offsets in between, such as those of the sizes of codes.
-/

namespace TreeWasm

open Wasm Wasm.Validation

/-! ## The message of a fault -/

/-- How a fault is described that is blamed on the function of a name, or on none. -/
def blaming (subject : String) (name? : Option String) (fault : Fault) : String :=
  subject ++ " failed validation" ++
    (match name? with
      | some name => " in function '" ++ name ++ "'"
      | none => "") ++
    ": " ++ fault.cause.message ++ " (at offset " ++ toString fault.offset ++ ")"

theorem message_report (subject : String) (nameOf : Nat → Option String) (bytes : List UInt8)
    (fault : Fault) : (report subject nameOf bytes fault).diagnose.message =
      blaming subject ((functionAt? bytes fault.offset).bind nameOf) fault := by
  unfold report blaming
  cases (functionAt? bytes fault.offset).bind nameOf <;> rfl

/-- The description tells what the fault is blamed on. -/
theorem blaming_inj (subject : String) (fault : Fault) {name? name?' : Option String} :
    blaming subject name? fault = blaming subject name?' fault ↔ name? = name?' := by
  constructor
  · intro h
    simp only [blaming, String.append_assoc, String.append_right_inj] at h
    simp only [← String.append_assoc, String.append_left_inj] at h
    cases name? <;> cases name?'
    · rfl
    · simp [String.ext_iff] at h
    · simp [String.ext_iff] at h
    · simpa using h
  · rintro rfl
    rfl

/-! ## Names of functions -/

namespace Registry

/-- The name of the function that has code at an offset, if one has. -/
def nameAt? (r : Registry) (settings : Settings) (offset : Nat) : Option String :=
  (functionAt? (r.encode settings) offset).bind (r.names[·]?)

variable {r : Registry} {settings : Settings}

/-- A function that has code has a name. -/
theorem exists_name_of_inCode {k offset : Nat} (h : (r.image settings).InCode k offset) :
    ∃ f, r.functions[k]? = some f ∧ r.names[k]? = some f.name := by
  obtain ⟨c, hc, -⟩ := h
  simp only [image, List.getElem?_map] at hc
  obtain ⟨f, hf, -⟩ := Option.map_eq_some_iff.1 hc
  exact ⟨f, by simpa using hf, by simp [names, hf]⟩

theorem nameAt?_eq_some_iff (h : (r.image settings).SizesFit) (offset : Nat) (name : String) :
    r.nameAt? settings offset = some name ↔
      ∃ k, r.names[k]? = some name ∧ (r.image settings).InCode k offset := by
  unfold nameAt? encode
  rw [Option.bind_eq_some_iff]
  simp only [Image.functionAt?_eq_some_iff h (r.counts_image settings), and_comm]

theorem nameAt?_eq_none_iff (h : (r.image settings).SizesFit) (offset : Nat) :
    r.nameAt? settings offset = none ↔ ∀ k, ¬(r.image settings).InCode k offset := by
  constructor
  · intro hnone k hin
    obtain ⟨f, -, hname⟩ := exists_name_of_inCode hin
    have hsome := (nameAt?_eq_some_iff h offset f.name).2 ⟨k, hname, hin⟩
    exact nomatch hnone.symm.trans hsome
  · intro hnone
    unfold nameAt? encode
    rw [(Image.functionAt?_eq_none_iff h (r.counts_image settings) offset).2 hnone]
    rfl

end Registry

/-! ## Programs -/

/-- Functions are registered under their qualified names. -/
theorem names_registryOf {program : List Module} (h : verdict (qualified program) = .ok ()) :
    (registryOf program).names = (qualified program).map Function.name := by
  rw [(records_registryOf program).names_eq]
  refine List.ext_getElem? fun i => ?_
  rw [List.getElem?_map, List.getElem?_map]
  cases hf : (qualified program)[i]? with
  | none =>
    have hlength := List.getElem?_eq_none_iff.1 hf
    rw [← length_accepted h] at hlength
    rw [List.getElem?_eq_none_iff.2 hlength]
    rfl
  | some f =>
    obtain ⟨g, hg, hrep⟩ := represents_accepted h hf
    rw [hg]
    exact congrArg some hrep.name

/-- A program is assembled exactly if none of its functions is refused. -/
theorem on_assembleProgram_eq_ok_iff {program : List Module} {r : Registry} :
    (assembleProgram program).on {} = (.ok (), r) ↔
      verdict (qualified program) = .ok () ∧ registryOf program = r := by
  rw [on_assembleProgram, registryOf_eq, Prod.mk.injEq]

/-- The fault that validation finds is the failure of the program. -/
theorem generate_eq_error_of_check {program : List Module} {settings : Settings}
    (hv : settings.validateOutput = true) (hok : verdict (qualified program) = .ok ())
    {fault : Fault} (h : check ((registryOf program).encode settings) = .error fault) :
    ∃ d, generate program settings = .error d ∧
      d.message =
        blaming generatedSubject ((registryOf program).nameAt? settings fault.offset) fault := by
  let r := registryOf program
  have hvalidate : r.validate (r.encode settings) =
      .error (report generatedSubject (r.names[·]?) (r.encode settings) fault).diagnose := by
    unfold Registry.validate Validation.validate
    rw [h]
  refine ⟨(report generatedSubject (r.names[·]?) (r.encode settings) fault).diagnose, ?_, ?_⟩
  · rw [generate_eq, hok]
    unfold emitted
    rw [if_pos hv, hvalidate]
    rfl
  · exact message_report ..

/-- If validation finds a fault in the binary of a program, the message names the qualified name of
a function exactly if the offset of the fault is that of a byte of the code of a function with this
name, counted in the order of the program, and it names none exactly if the offset is that of a byte
of no code. In general, whatever is registered, the function that is found at an offset of the
binary is the one whose code has a byte there, and its name is the one that it was registered under.
An offset lies in one code at most. All this is for binaries whose sizes are integers of 32 bits, as
the format has them. -/
theorem generate_blames {program : List Module} {settings : Settings} {r : Registry}
    (hv : settings.validateOutput = true) (hr : (assembleProgram program).on {} = (.ok (), r))
    (hsizes : (r.image settings).SizesFit) :
    (∀ fault, check (r.encode settings) = .error fault →
      ∃ d, generate program settings = .error d ∧
        (∀ name, d.message = blaming generatedSubject (some name) fault ↔
          ∃ k f, (qualified program)[k]? = some f ∧ f.name = name ∧
            (r.image settings).InCode k fault.offset) ∧
        (d.message = blaming generatedSubject none fault ↔
          ∀ k, ¬(r.image settings).InCode k fault.offset)) ∧
    ∀ (r : Registry) (settings : Settings), (r.image settings).SizesFit →
      (∀ (k : Nat) f, r.functions[k]? = some f → ∃ behind, r.encode settings =
        (r.image settings).beforeCode k (Registry.codeOf f) ++ (Registry.codeOf f).encode ++
          behind) ∧
      ∀ offset,
        (∀ k, functionAt? (r.encode settings) offset = some k ↔
          (r.image settings).InCode k offset) ∧
        (∀ name, r.nameAt? settings offset = some name ↔
          ∃ k f, r.functions[k]? = some f ∧ f.name = name ∧ (r.image settings).InCode k offset) ∧
        (r.nameAt? settings offset = none ↔ ∀ k, ¬(r.image settings).InCode k offset) ∧
        ∀ k k', (r.image settings).InCode k offset → (r.image settings).InCode k' offset →
          k = k' := by
  refine ⟨?_, ?_⟩
  · intro fault hfault
    obtain ⟨hok, rfl⟩ := on_assembleProgram_eq_ok_iff.1 hr
    obtain ⟨d, hd, hmessage⟩ := generate_eq_error_of_check hv hok hfault
    refine ⟨d, hd, ?_, ?_⟩
    · intro name
      rw [hmessage, blaming_inj, Registry.nameAt?_eq_some_iff hsizes, names_registryOf hok]
      simp only [List.getElem?_map, Option.map_eq_some_iff, ← exists_and_right, and_assoc]
    · rw [hmessage, blaming_inj, Registry.nameAt?_eq_none_iff hsizes]
  · intro r settings hsizes
    refine ⟨?_, ?_⟩
    · intro k f hf
      exact Image.encode_eq_beforeCode (by simp [Registry.image, hf])
    · intro offset
      refine ⟨?_, ?_, Registry.nameAt?_eq_none_iff hsizes offset, ?_⟩
      · intro k
        exact Image.functionAt?_eq_some_iff hsizes (r.counts_image settings) k offset
      · intro name
        rw [Registry.nameAt?_eq_some_iff hsizes]
        simp only [Registry.names, List.getElem?_map, Array.getElem?_toList,
          Option.map_eq_some_iff, ← exists_and_right, and_assoc]
      · intro k k' h h'
        exact h.unique h'

/-- The second of two functions adds numbers of the wrong type. -/
def misTyped : List Module :=
  [⟨"m", [⟨"ok", [], .int32, [], .constInt32 1⟩,
    ⟨"bad", [], .int32, [], .binaryOp .add .int32 (.constFloat64 ⟨0⟩) (.constFloat64 ⟨0⟩)⟩]⟩]

theorem image_misTyped : (registryOf misTyped).image { validateOutput := true } =
    { types := [⟨[], [.i32]⟩]
      functions := [0, 0]
      exports := []
      codes := [⟨[], [.constI32 1]⟩,
        ⟨[], [.constF64 ⟨0⟩, .constF64 ⟨0⟩, .numeric (.int .w32 .add)]⟩]
      names := [(0, "mok"), (1, "mbad")] } := by
  have hlog : accepted (qualified misTyped) =
      [⟨"mok", ⟨[], [.i32]⟩, [], .constI32 1⟩, ⟨"mbad", ⟨[], [.i32]⟩, [],
        .binary (.int .w32 .add) (.constF64 ⟨0⟩) (.constF64 ⟨0⟩)⟩] := rfl
  obtain ⟨htypes, hfunctions⟩ := Registry.registerAll_pair ⟨"mok", ⟨[], [.i32]⟩, [], .constI32 1⟩
    ⟨"mbad", ⟨[], [.i32]⟩, [], .binary (.int .w32 .add) (.constF64 ⟨0⟩) (.constF64 ⟨0⟩)⟩ rfl
  rw [registryOf_eq, hlog]
  unfold Registry.image Registry.names
  rw [htypes, hfunctions]
  rfl

/-- Whether validation finds a certain fault can be evaluated. -/
instance (bytes : List UInt8) (fault : Fault) : Decidable (check bytes = .error fault) :=
  match check bytes with
  | .ok () => .isFalse nofun
  | .error f => decidable_of_iff (f = fault) ⟨congrArg Except.error, Except.error.inj⟩

/-- The fault is at the addition. -/
theorem check_misTyped : check ((registryOf misTyped).encode { validateOutput := true }) =
    .error ⟨.mismatch .i32 .f64, 48⟩ := by
  unfold Registry.encode
  rw [image_misTyped]
  decide +kernel

/-- The second function is blamed, by its qualified name. -/
theorem generate_misTyped :
    ∃ d, generate misTyped { validateOutput := true } = .error d ∧
      d.message = blaming generatedSubject (some "mbad")
        ⟨.mismatch .i32 .f64, 48⟩ := by
  have hsizes : ((registryOf misTyped).image { validateOutput := true }).SizesFit := by
    rw [image_misTyped]
    exact ⟨by decide +kernel, by decide +kernel, by decide +kernel, by decide +kernel,
      by decide +kernel⟩
  have hcode : ((registryOf misTyped).image { validateOutput := true }).InCode 1 48 := by
    rw [image_misTyped]
    exact ⟨_, rfl, by decide +kernel, by decide +kernel⟩
  have hassembled : (assembleProgram misTyped).on {} = (.ok (), registryOf misTyped) :=
    on_assembleProgram_eq_ok_iff.2 ⟨rfl, rfl⟩
  obtain ⟨hblame, -⟩ := generate_blames (by rfl) hassembled hsizes
  obtain ⟨d, hd, hname, -⟩ := hblame _ check_misTyped
  exact ⟨d, hd, (hname "mbad").2 ⟨1, _, rfl, rfl, hcode⟩⟩

end TreeWasm
