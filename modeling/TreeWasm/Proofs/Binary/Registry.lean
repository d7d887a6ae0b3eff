-- SUMMARY: The binary of a registry is read back as the contents of the registry.
import TreeWasm.Proofs.Binary.Image
import TreeWasm.Proofs.Registry.Basic
import TreeWasm.Registry.Image

/-!
# Registries in binaries

Nothing of a registry is lost in its binary, whatever the nodes in it are, as long as every count
and every size is an integer of 32 bits (`Registry.Reachable.readModule_encode`). Branch depths and
indices are such integers by their nature; hand-made nodes can name any.
-/

namespace TreeWasm

open Wasm

namespace Registry

/-- The sizes of the sections, the number of local slots and the depths of branches are integers of
32 bits. -/
structure Fits (r : Registry) (settings : Settings) : Prop where
  sizes : (r.image settings).SizesFit
  locals : ∀ f ∈ r.functions.toList, f.locals.length < UInt32.size
  operators : ∀ f ∈ r.functions.toList, ∀ op ∈ f.body.operators, op.Fits

/-- The code of a registered function with its slots one by one, up to the operator that ends it. -/
def bodyOf (f : Registered) : Body :=
  ⟨f.locals, (f.body.operators ++ [Operator.finish]).map .basic⟩

/-- What the sections of the binary say. -/
def contents (r : Registry) (settings : Settings) : List Contents :=
  Contents.unlessEmpty .types r.types.toList ++
    (Contents.unlessEmpty .functions (r.functions.toList.map (·.typeIndex.toNat)) ++
    ((if settings.exportFunctions then
      Contents.unlessEmpty .exports (r.names.mapIdx fun i name => ⟨name, i⟩) else []) ++
    (Contents.unlessEmpty .codes (r.functions.toList.map bodyOf) ++
    if settings.emitNameSection then
      Contents.unlessEmpty .names (r.names.mapIdx fun i name => (i, name)) else [])))

/-- Runs are no longer than the slots that they stand for. -/
theorem count_le_length_of_mem_group {locals : List ValType} {run : LocalRun}
    (h : run ∈ LocalRun.group locals) : run.count ≤ locals.length := by
  obtain ⟨xs, ys, hgroup⟩ := List.append_of_mem h
  rw [← LocalRun.expand_group locals, hgroup]
  simp only [LocalRun.expand, List.flatMap_append, List.flatMap_cons, List.length_append,
    List.length_replicate]
  omega

theorem toBody_codeOf (f : Registered) : (codeOf f).toBody = bodyOf f := by
  unfold codeOf Node.code Code.toBody
  rw [LocalRun.expand_group]
  rfl

theorem nested_image (r : Registry) (settings : Settings) : (r.image settings).Nested := by
  intro c hc
  obtain ⟨f, -, rfl⟩ := List.mem_map.1 hc
  exact (f.body.nests_operators false []).append (.singleton rfl)

theorem unlessEmpty_ite (b : Bool) (make : List α → Contents) (entries : List α) :
    Contents.unlessEmpty make (if b then entries else []) =
      if b then Contents.unlessEmpty make entries else [] := by
  cases b <;> rfl

/-- As long as there are not more functions than indices, each has the index of its position. -/
theorem mapIdx_indexAt {names : List String} (h : names.length ≤ UInt32.size)
    (make : Nat → String → α) :
    (names.mapIdx fun i name => make (indexAt i) name) = names.mapIdx make := by
  refine List.ext_getElem? fun i => ?_
  rw [List.getElem?_mapIdx, List.getElem?_mapIdx]
  cases hi : names[i]? with
  | none => rfl
  | some name =>
    have hlt : i < UInt32.size := Nat.lt_of_lt_of_le (List.getElem?_eq_some_iff.1 hi).1 h
    rw [indexAt, UInt32.toNat_ofNat_of_lt' hlt]

theorem contents_image {r : Registry} (h : r.names.length ≤ UInt32.size) (settings : Settings) :
    (r.image settings).contents = r.contents settings := by
  have hcodes :
      (r.functions.toList.map codeOf).map Code.toBody = r.functions.toList.map bodyOf := by
    rw [List.map_map]
    exact List.map_congr_left fun f _ => toBody_codeOf f
  simp only [Image.contents, contents, image, hcodes, unlessEmpty_ite,
    mapIdx_indexAt h fun i name => Export.mk name i, mapIdx_indexAt h Prod.mk]

/-- What is exported or named has the index of a function. -/
theorem lt_of_mem_mapIdx {names : List String} {make : Nat → String → α} (index : α → Nat)
    (hmake : ∀ i name, index (make i name) = indexAt i) {b : Bool} {a : α}
    (h : a ∈ if b then names.mapIdx make else []) : index a < names.length := by
  cases b with
  | false => cases h
  | true =>
    obtain ⟨i, hi, rfl⟩ := List.mem_mapIdx.1 h
    rw [hmake]
    exact Nat.lt_of_le_of_lt (toNat_ofNat_le i) hi

/-- Sections with sizes of 32 bits have no more types and functions than indices. -/
theorem size_types_of_sizesFit {r : Registry} {settings : Settings}
    (h : (r.image settings).SizesFit) : r.types.size ≤ UInt32.size :=
  Nat.le_of_lt (count_lt_of_encodeVec FuncType.encode_ne_nil h.types)

theorem length_names_of_sizesFit {r : Registry} {settings : Settings}
    (h : (r.image settings).SizesFit) : r.names.length < UInt32.size := by
  have hfunctions : (r.functions.toList.map (·.typeIndex.toNat)).length < UInt32.size :=
    count_lt_of_encodeVec Leb128.unsigned_ne_nil h.functions
  rw [List.length_map] at hfunctions
  rwa [names, List.length_map]

theorem Consistent.fits_image {r : Registry} (h : r.Consistent) {settings : Settings}
    (hfit : r.Fits settings) : (r.image settings).Fits := by
  have htypes : r.types.size ≤ UInt32.size := size_types_of_sizesFit hfit.sizes
  have hnames := length_names_of_sizesFit hfit.sizes
  refine ⟨hfit.sizes, ?_, ?_, ?_, ?_, ?_⟩
  · intro index hi
    obtain ⟨f, hf, rfl⟩ := List.mem_map.1 hi
    exact Nat.lt_of_lt_of_le (h.typeIndex_lt hf) htypes
  · intro e he
    exact Nat.lt_trans (lt_of_mem_mapIdx Export.function (fun _ _ => rfl) he) hnames
  · intro c hc run hr
    obtain ⟨f, hf, rfl⟩ := List.mem_map.1 hc
    exact Nat.lt_of_le_of_lt (count_le_length_of_mem_group hr) (hfit.locals f hf)
  · intro c hc op ho
    obtain ⟨f, hf, rfl⟩ := List.mem_map.1 hc
    exact hfit.operators f hf op ho
  · intro entry he
    exact Nat.lt_trans (lt_of_mem_mapIdx Prod.fst (fun _ _ => rfl) he) hnames

/-- The binary of a registry starts with the magic number and the version, and reading it gives back
the types, the type of each function, the code of each function, and the exports and the names if
the settings ask for them. It is read to its end. -/
theorem Reachable.readModule_encode {r : Registry} (h : r.Reachable) {settings : Settings}
    (hfit : r.Fits settings) :
    header <+: r.encode settings ∧ readModule (r.encode settings) = .ok (r.contents settings) := by
  refine ⟨?_, ?_⟩
  · unfold encode Image.encode
    simp only [List.append_assoc]
    exact List.prefix_append header _
  · rw [← contents_image (Nat.le_of_lt (length_names_of_sizesFit hfit.sizes)) settings]
    exact (h.consistent.fits_image hfit).readModule_eq (r.nested_image settings)

/-- The one function in `single`. It pushes a float, drops it, and breaks with its parameter. -/
def answer : Registered where
  name := "answer"
  typeIndex := 0
  locals := [.f64, .f64]
  body := .block "b" .word32 [.drop (.constF64 ⟨1⟩), .breakWith "b" 0 (.localGet 0 .word32)]

def single : Registry :=
  (({} : Registry).addFunction answer.name ⟨[.i32], [.i32]⟩ answer.locals answer.body).2

theorem single_eq : single.types = #[⟨[.i32], [.i32]⟩] ∧ single.functions = #[answer] := by
  have hnone : ({} : Registry).findType? ⟨[.i32], [.i32]⟩ = none := by simp [findType?]
  unfold single addFunction addType
  rw [hnone]
  exact ⟨rfl, rfl⟩

theorem single_readModule_encode :
    single.Reachable ∧ single.Fits { exportFunctions := true } ∧
    header <+: single.encode { exportFunctions := true } ∧
    readModule (single.encode { exportFunctions := true }) = .ok
      [.types [⟨[.i32], [.i32]⟩], .functions [0], .exports [⟨"answer", 0⟩],
        .codes [⟨[.f64, .f64], [.basic (.block (some .i32)), .basic (.constF64 ⟨1⟩),
          .basic .drop, .basic (.localGet 0), .basic (.branch 0), .basic .finish, .basic .finish]⟩],
        .names [(0, "answer")]] := by
  have hreach : single.Reachable := .addFunction _ _ _ _ .empty
  obtain ⟨htypes, hfunctions⟩ := single_eq
  have hfit : single.Fits { exportFunctions := true } := by
    refine ⟨?_, ?_, ?_⟩
    · unfold image names
      rw [htypes, hfunctions]
      constructor <;> decide +kernel
    · rw [hfunctions]
      decide
    · rw [hfunctions]
      simp [answer, Node.operators, Node.operatorsThen, Node.operatorsAllThen, Operator.Fits,
        UInt32.size]
  refine ⟨hreach, hfit, ?_⟩
  have hread := hreach.readModule_encode hfit
  unfold contents names at hread
  rwa [htypes, hfunctions] at hread

end Registry

end TreeWasm
