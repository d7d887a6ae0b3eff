-- SUMMARY: Which failure a program is refused with, and that only the list of its functions counts.
import TreeWasm.Proofs.Assembly.Registrations
import TreeWasm.Proofs.Generation
import TreeWasm.Proofs.Registry.Emission

/-!
# Refused programs

A program is the list of its functions under their qualified names. The first function with a part
that fails decides the failure, and no bytes come out; if there is none, the bytes say of all
functions, in order, what they were registered with (`generate_first_refusal`). So two programs with
the same list have the same outcome, however the functions are spread over modules and wherever
their names are cut.
-/

namespace TreeWasm

open Wasm Wasm.Validation

theorem registryOf_eq (program : List Module) :
    registryOf program = ({} : Registry).registerAll (accepted (qualified program)) :=
  congrArg Prod.snd (on_assembleProgram program {})

theorem records_registryOf (program : List Module) :
    (registryOf program).Records (accepted (qualified program)) := by
  rw [registryOf_eq]
  exact Registry.records_empty.registerAll _

theorem mem_types_registryOf (program : List Module) (type : FuncType) :
    type ∈ (registryOf program).types.toList ↔
      ∃ g ∈ accepted (qualified program), g.type = type := by
  rw [registryOf_eq, Registry.Reachable.empty.consistent.mem_types_registerAll]
  simp

/-- The entries of the binary are those of the functions that are registered. -/
theorem emits_registryOf (program : List Module) (settings : Settings) :
    Emits settings (accepted (qualified program)) ((registryOf program).entries settings) :=
  (records_registryOf program).emits (mem_types_registryOf program) settings

theorem reachable_registryOf (program : List Module) : (registryOf program).Reachable := by
  rw [registryOf_eq]
  exact Registry.Reachable.empty.registerAll _

/-- The bytes of a program whose functions all stand. -/
def emitted (program : List Module) (settings : Settings) : Except Diagnostic (List UInt8) := do
  let bytes := (registryOf program).encode settings
  if settings.validateOutput then
    (registryOf program).validate bytes
  return bytes

/-- No other bytes come out than those of the registry. -/
theorem emitted_eq_ok {program : List Module} {settings : Settings} {bytes : List UInt8}
    (h : emitted program settings = .ok bytes) : (registryOf program).encode settings = bytes := by
  unfold emitted at h
  split at h
  · obtain ⟨_, -, h⟩ := bind_eq_ok_iff.1 h
    exact Except.ok.inj h
  · exact Except.ok.inj h

/-- They come out unless validation is asked for and finds a fault. -/
theorem emitted_cases (program : List Module) (settings : Settings) :
    emitted program settings = .ok ((registryOf program).encode settings) ∧
        (settings.validateOutput = true →
          check ((registryOf program).encode settings) = .ok ()) ∨
      settings.validateOutput = true ∧ check ((registryOf program).encode settings) ≠ .ok () ∧
        ∃ d, emitted program settings = .error d ∧ d.kind = .unreachable := by
  unfold emitted
  split
  · next hv =>
    dsimp only
    rcases (registryOf program).validate_eq ((registryOf program).encode settings) with
      ⟨hok, hpass⟩ | ⟨hfail, d, herror, hkind⟩
    · rw [hok]
      exact .inl ⟨rfl, fun _ => hpass⟩
    · rw [herror]
      exact .inr ⟨hv, hfail, d, rfl, hkind⟩
  · next hv => exact .inl ⟨rfl, fun h => (hv h).elim⟩

/-- Assembly comes before anything else. -/
theorem respond_eq (program : List Module) (settings : Settings) :
    respond program settings = match verdict (qualified program) with
      | .ok () =>
        (if settings.printModule then some (registryOf program).listing else none,
          emitted program settings)
      | .error d => (none, .error d) := by
  unfold respond emitted
  rw [on_assembleProgram, registryOf_eq]
  cases verdict (qualified program) <;> rfl

theorem generate_eq (program : List Module) (settings : Settings) :
    generate program settings = (do verdict (qualified program); emitted program settings) := by
  unfold generate
  rw [respond_eq]
  cases verdict (qualified program) <;> rfl

theorem generate_eq_emitted {program : List Module} (h : verdict (qualified program) = .ok ())
    (settings : Settings) : generate program settings = emitted program settings := by
  rw [generate_eq, h]
  rfl

/-- The outcome depends on a program through its functions and their qualified names alone. -/
theorem generate_congr {program other : List Module} (h : qualified other = qualified program)
    (settings : Settings) : generate other settings = generate program settings := by
  have hr : registryOf other = registryOf program := by rw [registryOf_eq, registryOf_eq, h]
  rw [generate_eq, generate_eq, h]
  unfold emitted
  rw [hr]

/-- The functions of a program are registered in order if all of them stand. -/
theorem represents_accepted {program : List Module} (h : verdict (qualified program) = .ok ())
    {i : Nat} {f : Function} (hf : (qualified program)[i]? = some f) :
    ∃ g, (accepted (qualified program))[i]? = some g ∧ g.Represents f := by
  have hmapped : ((qualified program).map Function.registration)[i]? = some f.registration := by
    rw [List.getElem?_map, hf]
    rfl
  rw [map_registration_of_verdict h, List.getElem?_map] at hmapped
  obtain ⟨g, hg, hreg⟩ := Option.map_eq_some_iff.1 hmapped
  exact ⟨g, hg, Function.represents_of_registration hreg.symm⟩

theorem length_accepted {program : List Module} (h : verdict (qualified program) = .ok ()) :
    (accepted (qualified program)).length = (qualified program).length := by
  simpa using (congrArg List.length (map_registration_of_verdict h)).symm

/-- If a function has a part that fails, the outcome is the failure of the first such part of the
first such function, with the qualified name of the function added to it. If there is none, all
functions are registered in order, each with its name, signature, slots and body. No other bytes can
come out than those whose sections list, in this order, the signatures, the code, and the exports
and names of these functions; they do come out, as long as their sizes are integers of 32 bits,
unless validation finds a fault in them. Reading them gives back the functions. In any case the
outcome is that of every program with the same functions under the same qualified names. -/
theorem generate_first_refusal (program : List Module) (settings : Settings) :
    (∀ before f after refusal, qualified program = before ++ f :: after →
      (∀ g ∈ before, g.refusals = []) → f.refusals.head? = some refusal →
      generate program settings = .error (refusal.diagnose.withEntry .functionName f.name)) ∧
    ((∀ f ∈ qualified program, f.refusals = []) →
      (assembleProgram program).on {} = (.ok (), registryOf program) ∧
      (accepted (qualified program)).length = (qualified program).length ∧
      (∀ (i : Nat) f, (qualified program)[i]? = some f →
        ∃ g, (accepted (qualified program))[i]? = some g ∧ g.Represents f) ∧
      ∃ bytes, bytes = encodeSections ((registryOf program).entries settings).sections ∧
        Emits settings (accepted (qualified program)) ((registryOf program).entries settings) ∧
        (∀ bytes', generate program settings = .ok bytes' → bytes' = bytes) ∧
        (((registryOf program).image settings).SizesFit →
          generate program settings = .ok bytes ∨
            settings.validateOutput = true ∧ check bytes ≠ .ok () ∧
              ∃ d, generate program settings = .error d ∧ d.kind = .unreachable) ∧
        ((registryOf program).Fits settings → readModule bytes =
          .ok (contentsOf settings (registryOf program).types.toList
            (accepted (qualified program))))) ∧
    ∀ other, qualified other = qualified program →
      generate other settings = generate program settings := by
  refine ⟨?_, ?_, fun other h => generate_congr h settings⟩
  · intro before f after refusal hsplit hbefore hf
    have hreg := Function.registration_eq_error_iff.2 ⟨refusal, hf, rfl⟩
    rw [generate_eq, hsplit, verdict_eq_error hbefore hreg]
    rfl
  · intro h
    have hok := verdict_eq_ok h
    have hgenerate := generate_eq_emitted hok settings
    have hrecords := records_registryOf program
    refine ⟨?_, length_accepted hok, fun i f hf => represents_accepted hok hf,
      (registryOf program).encode settings, Registry.encode_eq _ settings,
      emits_registryOf program settings, ?_, ?_, ?_⟩
    · rw [on_assembleProgram, hok, registryOf_eq]
    · intro bytes hbytes
      exact (emitted_eq_ok (hgenerate ▸ hbytes)).symm
    · intro _
      rw [hgenerate]
      exact (emitted_cases program settings).imp_left And.left
    · intro hfit
      rw [((reachable_registryOf program).readModule_encode hfit).2,
        hrecords.contents_eq (Registry.size_types_of_sizesFit hfit.sizes)]

/-- Functions "ab" and "abc", the second of which has a slot, a body and a return type that fail.
A third one fails as well. -/
def failing : List Module :=
  [⟨"a", [⟨"b", [.int32], .int32, [], .localGet 0 .int32⟩,
    ⟨"bc", [.int32], .nothing, [.never], .breakTo "out"⟩]⟩,
   ⟨"", [⟨"", [.never], .int32, [], .stackFree 0⟩]⟩]

theorem fits_colliding : (registryOf colliding).Fits {} := by
  obtain ⟨-, hfunctions⟩ := registryOf_colliding
  refine ⟨(withinLimits_colliding false).toSizesFit, ?_, ?_⟩
  · rw [hfunctions]
    decide
  · rw [hfunctions]
    simp [Node.operators, Node.operatorsThen, Operator.Fits]

/-- The return type is checked before the body and the slots, and after the parameters. Of functions
none of which fails, the bytes are read back. -/
theorem generate_failing :
    generate failing {} = .error ((Refusal.unrepresentable .nothing).diagnose.withEntry
      .functionName "abc") ∧
    generate [⟨"ab", [⟨"", [.int32], .int32, [], .localGet 0 .int32⟩,
      ⟨"c", [.int32], .nothing, [.never], .breakTo "out"⟩]⟩,
      ⟨"", [⟨"", [.never], .int32, [], .stackFree 0⟩]⟩] {} = generate failing {} ∧
    ∃ bytes, generate colliding {} = .ok bytes ∧ readModule bytes = .ok
      [.types [⟨[], [.i32]⟩], .functions [0, 0],
        .codes [⟨[], [.basic (.constI32 1), .basic .finish]⟩,
          ⟨[], [.basic (.constI32 2), .basic .finish]⟩],
        .names [(0, "abc"), (1, "abc")]] := by
  obtain ⟨hfail, -, hsame⟩ := generate_first_refusal failing {}
  obtain ⟨-, hstands, -⟩ := generate_first_refusal colliding {}
  refine ⟨?_, hsame _ rfl, ?_⟩
  · refine hfail [⟨"ab", [.int32], .int32, [], .localGet 0 .int32⟩]
      ⟨"abc", [.int32], .nothing, [.never], .breakTo "out"⟩ _ (.unrepresentable .nothing) rfl ?_ rfl
    intro g hg
    obtain rfl := List.mem_singleton.1 hg
    rfl
  · have hnone : ∀ f ∈ qualified colliding, f.refusals = [] := by
      intro f hf
      rcases List.mem_cons.1 hf with rfl | hf
      · rfl
      · obtain rfl := List.mem_singleton.1 hf
        rfl
    obtain ⟨-, -, -, bytes, -, -, -, hout, hread⟩ := hstands hnone
    rcases hout fits_colliding.sizes with hok | ⟨hv, -⟩
    · refine ⟨bytes, hok, ?_⟩
      rw [hread fits_colliding, registryOf_colliding.1]
      rfl
    · cases hv

end TreeWasm
