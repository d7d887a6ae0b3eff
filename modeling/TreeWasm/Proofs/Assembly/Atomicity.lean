-- SUMMARY: Assembling a function adds all of it or nothing, and a module is added up to its first failure.
import TreeWasm.Proofs.Assembly.Registrations

/-!
# Atomicity of assembly

A function that fails leaves no trace in the registry, at whatever part it fails. One that does not
fail adds one function at the end, and its signature if that is new (`Registry.Gains`). Assembling a
module is to assemble its functions one after the other (`AssembledInTurn`), up to the first that
fails.
-/

namespace TreeWasm

namespace Registry

/-- The second registry is the first with a function more at the end. The table of types has one
more as well, unless the signature was there. -/
inductive Gains (r : Registry) (g : Registration) (r' : Registry) : Prop where
  | shared (index : UInt32)
      (found : r.findType? g.type = some index)
      (types : r'.types = r.types)
      (typeIndices : r'.typeIndices = r.typeIndices)
      (functions : r'.functions.toList = r.functions.toList ++ [⟨g.name, index, g.locals, g.body⟩])
  | fresh
      (missing : r.findType? g.type = none)
      (types : r'.types.toList = r.types.toList ++ [g.type])
      (findType? : ∀ type,
        r'.findType? type = if type = g.type then some r.typeCount else r.findType? type)
      (functions : r'.functions.toList =
        r.functions.toList ++ [⟨g.name, r.typeCount, g.locals, g.body⟩])

theorem gains_register (r : Registry) (g : Registration) : r.Gains g (r.register g) := by
  have hfunctions := r.functions_register g
  cases hfind : r.findType? g.type with
  | some index =>
    have hadd : r.addType g.type = (index, r) := addType_of_findType? hfind
    have htypes : (r.register g).types = (r.addType g.type).2.types := rfl
    have hindices : (r.register g).typeIndices = (r.addType g.type).2.typeIndices := rfl
    rw [hadd] at hfunctions htypes hindices
    exact .shared index hfind htypes hindices hfunctions
  | none =>
    have hadd : r.addType g.type = (r.typeCount, { r with
        types := r.types.push g.type
        typeIndices := r.typeIndices.insert g.type r.typeCount }) := by
      simp only [addType, hfind]
    have htypes : (r.register g).types = (r.addType g.type).2.types := rfl
    have hindices : (r.register g).typeIndices = (r.addType g.type).2.typeIndices := rfl
    rw [hadd] at hfunctions htypes hindices
    refine .fresh hfind (by rw [htypes, Array.toList_push]) (fun type => ?_) hfunctions
    unfold findType?
    rw [hindices, Std.HashMap.getElem?_insert]
    by_cases htype : type = g.type
    · rw [htype, beq_self_eq_true, if_pos rfl, if_pos rfl]
    · have hne : (g.type == type) = false := beq_eq_false_iff_ne.2 (Ne.symm htype)
      rw [hne, if_neg htype]
      rfl

/-- A function is kept where the registry ended before, with the index of its signature. Whoever
looks for it at the index that was given back finds it there, and its signature by its type index,
as long as there are not more functions or types than indices. -/
structure KeepsLast (r : Registry) (g : Registration) (r' : Registry) (f : Registered) : Prop where
  last : r'.functions[r.functions.size]? = some f
  registered : r'.registered? g = some f
  byIndex : r.functions.size < UInt32.size → r'.functions[r.functionCount.toNat]? = some f
  signature : r.types.size < UInt32.size → r'.type? f.typeIndex = some g.type

theorem Consistent.keepsLast_register {r : Registry} (h : r.Consistent) (g : Registration) :
    r.KeepsLast g (r.register g) ⟨g.name, (r.addType g.type).1, g.locals, g.body⟩ := by
  have hlast : (r.register g).functions[r.functions.size]? =
      some ⟨g.name, (r.addType g.type).1, g.locals, g.body⟩ := by
    rw [← Array.getElem?_toList, functions_register, ← Array.length_toList,
      List.getElem?_concat_length]
  refine ⟨hlast, r.registered?_register g, fun hsize => ?_, fun hsize => ?_⟩
  · rwa [functionCount, UInt32.toNat_ofNat_of_lt' hsize]
  · have hsize' : (r.register g).types.size ≤ UInt32.size :=
      Nat.le_trans (r.size_types_addType_le g.type) hsize
    exact (h.register g).type?_of_findType? hsize' (r.findType?_addType g.type)

end Registry

/-! ## Functions -/

namespace Function

/-- A function that returns `Never` has no result, and any other that is registered has one. -/
theorem results_of_registration {f : Function} {g : Registration} (h : f.registration = .ok g) :
    f.returnType = .never ∧ g.type.results = [] ∨
      ∃ v, f.returnType.valType? = some v ∧ g.type.results = [v] := by
  have hresults := (represents_of_registration h).results
  have hstands : refusal? f.returnType.machineType = none := by
    have hrefusals := exists_registration_iff.1 ⟨g, h⟩
    simp only [refusals, List.append_eq_nil_iff, Option.toList_eq_nil_iff] at hrefusals
    exact hrefusals.2.1
  cases htype : f.returnType.valType? with
  | some v => exact .inr ⟨v, rfl, by rw [← hresults, htype]; rfl⟩
  | none =>
    refine .inl ⟨?_, by rw [← hresults, htype]; rfl⟩
    revert htype hstands
    cases f.returnType <;> decide

/-- A function is assembled if it is registered, and then the registry gains it. -/
theorem on_assemble_eq_ok {f : Function} {moduleName : String} {r r' : Registry} {index : UInt32}
    (h : (f.assemble moduleName).on r = (.ok index, r')) :
    ∃ g, (f.qualify moduleName).registration = .ok g ∧ index = r.functionCount ∧
      r' = r.register g := by
  rw [on_assemble] at h
  cases hg : (f.qualify moduleName).registration with
  | error d =>
    rw [hg] at h
    cases h
  | ok g =>
    rw [hg] at h
    cases h
    exact ⟨g, rfl, rfl, rfl⟩

theorem on_assemble_eq_error {f : Function} {moduleName : String} {r r' : Registry} {d : Diagnostic}
    (h : (f.assemble moduleName).on r = (.error d, r')) : r' = r := by
  rw [on_assemble] at h
  cases hg : (f.qualify moduleName).registration with
  | error _ =>
    rw [hg] at h
    cases h
    rfl
  | ok g =>
    rw [hg] at h
    cases h

end Function

/-! ## Modules -/

/-- The functions can be assembled one after the other, and that leads from the first registry to
the second. -/
inductive AssembledInTurn (moduleName : String) : Registry → List Function → Registry → Prop where
  | nil (r : Registry) : AssembledInTurn moduleName r [] r
  | cons {r r' r'' : Registry} {f : Function} {fs : List Function} {index : UInt32} :
      (f.assemble moduleName).on r = (.ok index, r') → AssembledInTurn moduleName r' fs r'' →
      AssembledInTurn moduleName r (f :: fs) r''

/-- Functions are assembled in turn until none is left or one fails. -/
theorem assembleAll_inTurn (moduleName : String) (fs : List Function) (r : Registry) :
    ∃ done rest r', fs = done ++ rest ∧ AssembledInTurn moduleName r done r' ∧
      (rest = [] ∧ (assembleAll moduleName fs).on r = (.ok (), r') ∨
        ∃ f rest' d, rest = f :: rest' ∧ (f.assemble moduleName).on r' = (.error d, r') ∧
          (assembleAll moduleName fs).on r = (.error d, r')) := by
  induction fs generalizing r with
  | nil => exact ⟨[], [], r, rfl, .nil r, .inl ⟨rfl, rfl⟩⟩
  | cons f fs ih =>
    rw [assembleAll, Assembling.on_bind]
    cases hf : (f.assemble moduleName).on r with
    | mk outcome r₁ =>
      cases outcome with
      | error d =>
        obtain rfl := Function.on_assemble_eq_error hf
        exact ⟨[], f :: fs, r₁, rfl, .nil r₁, .inr ⟨f, fs, d, rfl, hf, rfl⟩⟩
      | ok index =>
        obtain ⟨done, rest, r', hsplit, hdone, hend⟩ := ih r₁
        exact ⟨f :: done, rest, r', congrArg (f :: ·) hsplit, .cons hf hdone, hend⟩

/-- Assembly is atomic for a function and leaves an exact prefix of a module, whatever the registry
holds already. A function that fails leaves the registry as it is. One that does not fail becomes
the last function, at the index that is given back: it carries its qualified name, its slots are
represented one by one, its result is, unless it never returns, and its body is what lowering makes
of it. Nothing else is added but its signature, if that was not there. A module leaves the registry
that its functions lead to one after the other, up to the end or to the first that fails there. -/
theorem assemble_atomic (r : Registry) :
    (∀ (f : Function) (moduleName : String),
      (∀ d r', (f.assemble moduleName).on r = (.error d, r') → r' = r) ∧
      ∀ index r', (f.assemble moduleName).on r = (.ok index, r') →
        index = r.functionCount ∧ ∃ g : Registration,
          g.Represents (f.qualify moduleName) ∧
          (f.returnType = .never ∧ g.type.results = [] ∨
            ∃ v, f.returnType.valType? = some v ∧ g.type.results = [v]) ∧
          r.Gains g r' ∧
          (r.Reachable → r'.Reachable ∧ ∃ added, r.KeepsLast g r' added)) ∧
    ∀ m : Module, ∃ done rest r',
      m.functions = done ++ rest ∧ AssembledInTurn m.name r done r' ∧
      (rest = [] ∧ m.assemble.on r = (.ok (), r') ∨
        ∃ f rest' d, rest = f :: rest' ∧ (f.assemble m.name).on r' = (.error d, r') ∧
          m.assemble.on r = (.error d, r')) := by
  constructor
  · intro f moduleName
    refine ⟨fun d r' => Function.on_assemble_eq_error, ?_⟩
    intro index r' h
    obtain ⟨g, hg, rfl, rfl⟩ := Function.on_assemble_eq_ok h
    have hresults := Function.results_of_registration (f := f.qualify moduleName) hg
    refine ⟨rfl, g, Function.represents_of_registration hg, hresults, r.gains_register g, ?_⟩
    exact fun hr => ⟨hr.register g, _, hr.consistent.keepsLast_register g⟩
  · intro m
    exact assembleAll_inTurn m.name m.functions r

/-- A function whose last slot has no representation. -/
def slotless : Function where
  name := "slotless"
  params := [.int32]
  returnType := .never
  locals := [.float64, .nothing]
  body := .constInt32 1

/-- Behind the function that fails stands one that would not. -/
def interrupted : Module where
  name := "interrupted"
  functions := [leaving, slotless, leaving]

/-- The body of the failing function has been lowered when its slot fails, but nothing is left of
it. -/
theorem interrupted_atomic :
    (∃ d, (slotless.assemble "interrupted").on {} = (.error d, {})) ∧
    (∃ r, (leaving.assemble "interrupted").on {} = (.ok 0, r) ∧
      ∃ g : Registration, g.Represents (leaving.qualify "interrupted") ∧ Registry.Gains {} g r) ∧
    ∃ done f rest r d, interrupted.functions = done ++ f :: rest ∧
      AssembledInTurn "interrupted" {} done r ∧
      (f.assemble "interrupted").on r = (.error d, r) ∧
      interrupted.assemble.on {} = (.error d, r) := by
  obtain ⟨hfunction, hmodule⟩ := assemble_atomic {}
  refine ⟨?_, ?_, ?_⟩
  · obtain ⟨d, r, hfails⟩ : ∃ d r, (slotless.assemble "interrupted").on {} = (.error d, r) :=
      ⟨_, _, rfl⟩
    obtain rfl := (hfunction slotless "interrupted").1 d r hfails
    exact ⟨d, hfails⟩
  · obtain ⟨parts, hparts⟩ : ∃ parts, leaving.assembled = .ok parts := ⟨_, rfl⟩
    have hstands := Function.assemble_of_assembled hparts "interrupted" {}
    obtain ⟨-, g, hg, -, hgains, -⟩ := (hfunction leaving "interrupted").2 0 _ hstands
    exact ⟨_, hstands, g, hg, hgains⟩
  · obtain ⟨d, r, hfails⟩ : ∃ d r, interrupted.assemble.on {} = (.error d, r) := ⟨_, _, rfl⟩
    obtain ⟨done, rest, r', hsplit, hdone, ⟨-, hstands⟩ | ⟨f, rest', d', rfl, hf, hend⟩⟩ :=
      hmodule interrupted
    · rw [hfails] at hstands
      cases hstands
    · exact ⟨done, f, rest', r', d', hsplit, hdone, hf, hend⟩

end TreeWasm
