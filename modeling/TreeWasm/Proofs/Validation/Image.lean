-- SUMMARY: The bytes of an image whose parts fit together pass validation exactly if no name is exported twice.
import TreeWasm.Proofs.Validation.Framing

/-!
# Validation of an image

An image fits together if its indices are in range and its code is that of functions of the declared
types (`Image.Sound`). Then validation finds no fault in its bytes, except that nothing keeps a name
from being exported twice (`Image.check_encode_eq_ok_iff`).
-/

namespace TreeWasm.Wasm

open Validation

namespace Image

/-- Neither the types nor the code of an image are about references. -/
structure Plain (image : Image) : Prop where
  types : ∀ t ∈ image.types, t.Plain
  codes : ∀ c ∈ image.codes, c.Plain

/-- Indices are in range, and every function has a type and code of this type, without
references. -/
structure Sound (image : Image) : Prop where
  plain : image.Plain
  typeIndices : ∀ index ∈ image.functions, index < image.types.length
  counts : image.functions.length = image.codes.length
  exported : ∀ e ∈ image.exports, e.function < image.functions.length
  codes {i : Nat} {type : FuncType} {c : Code} :
    image.typeOf? i = some type → image.codes[i]? = some c → c.Valid type

/-- Counts and sizes are such that validation goes on. -/
structure WithinLimits (image : Image) : Prop extends SizesFit image where
  typeCount : image.types.length ≤ Reader.maxEntries
  functionCount : image.functions.length ≤ Reader.maxEntries
  exportCount : image.exports.length ≤ Reader.maxEntries
  values : ∀ t ∈ image.types,
    t.params.length ≤ Reader.maxValues ∧ t.results.length ≤ Reader.maxValues
  slots {i : Nat} {type : FuncType} {c : Code} :
    image.typeOf? i = some type → image.codes[i]? = some c → (c.slots type).length ≤ maxLocals
  exportNames : ∀ e ∈ image.exports, e.name.toUTF8.toList.length ≤ Reader.maxNameSize
  exportWeight : 1 + image.exportWeights image.exports < Summary.maxWeight

variable {image : Image}

theorem Sound.exists_typeOf? (h : image.Sound) {i : Nat} (hi : i < image.functions.length) :
    ∃ type, image.typeOf? i = some type := by
  have hindex := h.typeIndices image.functions[i] (List.getElem_mem hi)
  refine ⟨image.types[image.functions[i]], ?_⟩
  simp [typeOf?, hi, hindex]

/-- The exports of an image are checked behind its types and functions. -/
theorem Sound.exportsFrom (h : image.Sound) (hl : image.WithinLimits) :
    image.ExportsFrom (.ofFunctions image) image.exports := by
  refine ⟨⟨h.plain.types, rfl, rfl, rfl, rfl⟩, fun e he => ⟨?_, ?_, hl.exportNames e he⟩,
    hl.exportWeight⟩
  · have hcount : image.functions.length < UInt32.size :=
      count_lt_of_encodeVec Leb128.unsigned_ne_nil hl.functions
    exact Nat.lt_trans (h.exported e he) hcount
  · exact h.exists_typeOf? (h.exported e he)

/-- Nothing fails if no part fails. -/
theorem forM_eq_ok {f : α → Except ε Unit} {as : List α} (h : ∀ a ∈ as, f a = .ok ()) :
    as.forM f = .ok () := by
  induction as with
  | nil => rfl
  | cons a as ih =>
    show (f a >>= fun _ => as.forM f) = .ok ()
    rw [h a List.mem_cons_self]
    exact ih fun a ha => h a (List.mem_cons_of_mem _ ha)

/-- The code of an image passes, wherever it was found. -/
theorem Sound.checkPending (h : image.Sound) (hl : image.WithinLimits) {s : Summary}
    (hs : s.Declares image) {pending : List Cursor}
    (hpending : pending.reverse.map Cursor.rest = image.codes.map Code.encode) :
    Validation.checkPending { s with pending } = .ok () := by
  refine forM_eq_ok fun (body, i) hmem => ?_
  have himported : ({ s with pending } : Summary).imported = 0 := hs.imported
  rw [himported] at hmem
  have hbody : pending.reverse[i]? = some body := List.mem_zipIdx_iff_getElem?.1 hmem
  have hbytes : (image.codes.map Code.encode)[i]? = some body.rest := by
    rw [← hpending, List.getElem?_map, hbody]
    rfl
  rw [List.getElem?_map] at hbytes
  obtain ⟨c, hc, hrest⟩ := Option.map_eq_some_iff.1 hbytes
  obtain ⟨hi, -⟩ := List.getElem?_eq_some_iff.1 hc
  obtain ⟨type, ht⟩ := h.exists_typeOf? (h.counts ▸ hi)
  have hmem := List.mem_of_getElem? hc
  have hfunction := checkFunction_encode (h.codes ht hc) (h.plain.codes c hmem)
    (h.plain.types type (mem_types_of_typeOf? ht)) (hl.slots ht hc) (hl.length_code hmem)
    s.toContext body.offset
  rw [hrest] at hfunction
  simp only [checkCode, hs.declaredFunction ht, located_ok]
  exact hfunction

/-! ## Sections of an image -/

section

variable (h : image.SizesFit)
include h

theorem SizesFit.listed_types : Listed .types 0x01 FuncType.encode image.types :=
  ⟨.inl rfl, ⟨rfl, by decide⟩, FuncType.encode_ne_nil, h.types⟩

theorem SizesFit.listed_functions : Listed .functions 0x03 Leb128.unsigned image.functions :=
  ⟨.inr (.inl rfl), ⟨rfl, by decide⟩, Leb128.unsigned_ne_nil, h.functions⟩

theorem SizesFit.listed_exports : Listed .exports 0x07 Export.encode image.exports :=
  ⟨.inr (.inr rfl), ⟨rfl, by decide⟩, Export.encode_ne_nil, h.exports⟩

end

/-- What is known behind the types of an image. -/
def afterTypes (image : Image) : Progress := ({} : Progress).after .types image.types.length

def afterFunctions (image : Image) : Progress :=
  image.afterTypes.after .functions image.functions.length

def afterExports (image : Image) : Progress :=
  image.afterFunctions.after .exports image.exports.length

theorem passed_afterTypes (image : Image) : image.afterTypes.passed ≤ Section.functions.place :=
  Nat.le_trans (Progress.passed_after_le (Nat.zero_le _)) (by decide)

theorem passed_afterFunctions (image : Image) :
    image.afterFunctions.passed ≤ Section.exports.place :=
  Nat.le_trans (Progress.passed_after_le (Nat.le_succ_of_le image.passed_afterTypes)) (by decide)

theorem passed_afterExports (image : Image) : image.afterExports.passed ≤ Section.code.place :=
  Nat.le_trans (Progress.passed_after_le (Nat.le_succ_of_le image.passed_afterFunctions))
    (by decide)

/-- The sections of types and functions leave the number of functions. -/
structure Ready (image : Image) (p : Progress) : Prop where
  functions : p.functions? =
    if image.functions.length = 0 then none else some image.functions.length
  codes : p.codes? = none
  data : ∀ offset, p.checkData offset = .ok ()

theorem ready_afterFunctions (image : Image) : image.Ready image.afterFunctions where
  functions := by
    have htypes : image.afterTypes.functions? = none := Progress.functions?_after (by decide)
    unfold afterFunctions
    by_cases hc : image.functions.length = 0
    · rw [hc, Progress.after, if_pos rfl, htypes]
      rfl
    · rw [Progress.after_of_pos hc, if_neg hc]
      rfl
  codes := (Progress.codes?_after (by decide)).trans (Progress.codes?_after (by decide))
  data offset := (Progress.checkData_after offset).trans (Progress.checkData_after offset)

theorem ready_afterExports (image : Image) : image.Ready image.afterExports where
  functions := (Progress.functions?_after (by decide)).trans image.ready_afterFunctions.functions
  codes := (Progress.codes?_after (by decide)).trans image.ready_afterFunctions.codes
  data offset := (Progress.checkData_after offset).trans (image.ready_afterFunctions.data offset)

theorem map_encodeSized_codes (image : Image) :
    image.codes.map (encodeSized ·.encode) =
      (image.codes.map Code.encode).map encodeSized := by
  rw [List.map_map]
  rfl

/-- From the code on, everything passes. -/
theorem Sound.accepts_codes (h : image.Sound) (hl : image.WithinLimits) {s : Summary}
    (hs : s.Declares image) {p : Progress} (hp : image.Ready p)
    (hplace : p.passed ≤ Section.code.place) :
    Accepts s p (encodeEntries 0x0a (image.codes.map (encodeSized ·.encode)) ++
      encodeNames image.names) True := by
  have hlength : (image.codes.map Code.encode).length = image.functions.length := by
    rw [List.length_map, h.counts]
  have hcodes := hl.codes
  rw [image.map_encodeSized_codes] at hcodes ⊢
  apply Accepts.codes hplace (hlength ▸ hp.functions) hcodes
  intro pending hcursors
  have hend : Validation.checkPending { s with pending := pending ++ s.pending } = .ok () := by
    rw [hs.pending, List.append_nil]
    exact h.checkPending hl hs hcursors
  have hpassed : ∀ offset,
      (p.after .code (image.codes.map Code.encode).length).checkCodes offset = .ok () := by
    intro offset
    rw [hlength]
    by_cases hc : image.functions.length = 0
    · simp [Progress.after, hc, Progress.checkCodes, hp.functions, hp.codes]
    · simp [Progress.after, hc, Progress.checkCodes, hp.functions]
  have hdata : ∀ offset,
      (p.after .code (image.codes.map Code.encode).length).checkData offset = .ok () :=
    fun offset => (Progress.checkData_after offset).trans (hp.data offset)
  have hnil := Accepts.nil (s := { s with pending := pending ++ s.pending }) hpassed hdata
  rw [hend] at hnil
  exact Accepts.names hl.names (by simpa using hnil)

/-- From the exports on, it matters whether their names are all different. -/
theorem Sound.accepts_exports (h : image.Sound) (hl : image.WithinLimits) :
    Accepts (.ofFunctions image) image.afterFunctions
      (encodeEntries 0x07 (image.exports.map Export.encode) ++
        (encodeEntries 0x0a (image.codes.map (encodeSized ·.encode)) ++ encodeNames image.names))
      (image.exports.map Export.name).Nodup := by
  have hexports := h.exportsFrom hl
  have hlisted := hl.listed_exports
  have hkind : entriesOf (.ofFunctions image) .exports =
      ("exports", Reader.maxEntries, 0, exportEntry) := rfl
  have hcount : 0 + image.exports.length ≤ Reader.maxEntries := by
    rw [Nat.zero_add]
    exact hl.exportCount
  have hfresh : (Summary.ofFunctions image).Fresh image.exports ↔
      (image.exports.map Export.name).Nodup := by
    unfold Summary.Fresh
    rw [show (Summary.ofFunctions image).exportNames = [] from rfl, List.append_nil]
  by_cases hnames : (image.exports.map Export.name).Nodup
  · obtain ⟨hread, hdeclares⟩ := hexports.reads (hfresh.2 hnames)
    have hrest := h.accepts_codes hl hdeclares image.ready_afterExports image.passed_afterExports
    rw [eq_true hnames]
    exact .entries hlisted image.passed_afterFunctions (checkEntries_of_reads hkind hcount hread)
      hrest
  · have hne : image.exports.length ≠ 0 := by
      intro hempty
      rw [List.eq_nil_of_length_eq_zero hempty] at hnames
      exact hnames .nil
    rw [eq_false hnames]
    refine .fault hlisted hne image.passed_afterFunctions ?_
    intro start offset
    obtain ⟨fault, hfault⟩ := hexports.error (mt hfresh.1 hnames) .nil offset []
    rw [List.append_nil] at hfault
    exact ⟨fault, checkEntries_of_error hkind hcount hfault start⟩

/-- The bytes of an image that fits together pass exactly if all exported names are different. -/
theorem check_encode_eq_ok_iff (h : image.Sound) (hl : image.WithinLimits) :
    check image.encode = .ok () ↔ (image.exports.map Export.name).Nodup := by
  have hfunctions := Accepts.entries hl.listed_functions image.passed_afterTypes
    (checkEntries_functions h.plain.types hl.functionCount h.typeIndices hl.typeCount)
    (h.accepts_exports hl)
  have htypes := Accepts.entries hl.listed_types (Nat.zero_le _)
    (checkEntries_types h.plain.types hl.typeCount hl.values) hfunctions
  unfold encode
  rw [List.append_assoc, List.append_assoc, List.append_assoc, List.append_assoc]
  exact htypes.check

end Image

end TreeWasm.Wasm
