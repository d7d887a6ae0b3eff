-- SUMMARY: Where the code of each function lies in the bytes of an image, and which function an offset belongs to.
import TreeWasm.Proofs.Validation.Image
import TreeWasm.Wasm.Validation.Report

/-!
# Code entries of an image

The framing of an image finds the code of its functions in order, each behind the sizes of all that
stands before it (`Image.codeEntries_encode`). An offset belongs to the function whose code has a
byte there (`Image.InCode`). The sizes between the codes belong to no function.
-/

namespace TreeWasm.Wasm

/-! ## Code entries among the parts -/

/-- The code entry that a part is. -/
def Part.body? : Part → Option Cursor
  | .codeEntry body => some body
  | _ => none

/-- The code entries among the parts. -/
def Framing.bodies (f : Framing) : List Cursor := f.parts.filterMap Part.body?

theorem codeEntries_eq (bytes : List UInt8) : codeEntries bytes = (frame bytes).bodies := by
  unfold codeEntries Framing.bodies
  congr

theorem Framing.bodies_cons_entries (f : Framing) (kind : Section) (start count : Nat)
    (contents : Cursor) : (f.cons (.entries kind start count contents)).bodies = f.bodies := rfl

theorem Framing.bodies_codeEntries (f : Framing) (cursors : List Cursor) :
    ((cursors.map Part.codeEntry).foldr cons f).bodies = cursors ++ f.bodies := by
  induction cursors with
  | nil => rfl
  | cons c cursors ih => exact congrArg (c :: ·) ih

/-- The code entries in the bytes from a section on, given the offset of the first byte. -/
def Yields (p : Progress) (bytes : List UInt8) (bodies : Nat → List Cursor) : Prop :=
  ∀ fuel offset, bytes.length ≤ fuel →
    (frameSections fuel p ⟨offset, bytes⟩).bodies = bodies offset

namespace Yields

variable {p : Progress} {ys : List UInt8} {bodies : Nat → List Cursor}

theorem codeEntries (h : Yields {} ys bodies) : codeEntries (header ++ ys) = bodies 8 := by
  rw [codeEntries_eq, frame_header_append]
  exact h _ 8 (by simp)

/-- At the end of the bytes, whatever else is missing, there are no more entries. -/
theorem nil (p : Progress) : Yields p [] fun _ => [] := by
  intro fuel offset _
  have hend : (frameEnd p offset).bodies = [] := by
    unfold frameEnd Framing.andThen
    cases p.checkCodes offset with
    | error fault => rfl
    | ok =>
      cases p.checkData offset with
      | error fault => rfl
      | ok => rfl
  cases fuel <;> simp [frameSections, hend]

/-- Other sections only take up room. -/
theorem entries {kind : Section} {id : UInt8} {α : Type} {encode : α → List UInt8} {as : List α}
    (hl : Listed kind id encode as) (hp : p.passed ≤ kind.place)
    (hrest : Yields (p.after kind as.length) ys bodies) :
    Yields p (encodeEntries id (as.map encode) ++ ys)
      fun offset => bodies (offset + (encodeEntries id (as.map encode)).length) := by
  by_cases has : as.length = 0
  · obtain rfl := List.eq_nil_of_length_eq_zero has
    exact hrest
  intro fuel offset hfuel
  rw [encodeEntries_eq (by rwa [List.length_map])] at hfuel
  obtain ⟨left, rfl, hleft⟩ := exists_fuel_of_encodeSection hfuel
  obtain ⟨start, contents, hframe⟩ := hl.frameSections_eq hp has left offset ys
  rw [hframe, Framing.bodies_cons_entries]
  exact hrest left _ hleft

/-- The offset of the first code entry in a code section. -/
def codeOffset (offset : Nat) (codes : List (List UInt8)) : Nat :=
  contentsOffset offset (encodeVec (codes.map encodeSized)) + (Leb128.unsigned codes.length).length

/-- The entries of the code section, if there are any. -/
theorem codes {codes : List (List UInt8)} (hp : p.passed ≤ Section.code.place)
    (hfunctions : p.functions? = if codes.length = 0 then none else some codes.length)
    (hlength : (encodeVec (codes.map encodeSized)).length < UInt32.size)
    (hrest : Yields (p.after .code codes.length) ys fun _ => []) :
    Yields p (encodeEntries 0x0a (codes.map encodeSized) ++ ys)
      fun offset => entriesAt (codeOffset offset codes) codes := by
  by_cases hcodes : codes.length = 0
  · obtain rfl := List.eq_nil_of_length_eq_zero hcodes
    exact hrest
  intro fuel offset hfuel
  rw [encodeEntries_eq (by rwa [List.length_map])] at hfuel ⊢
  obtain ⟨left, rfl, hleft⟩ := exists_fuel_of_encodeSection hfuel
  rw [if_neg hcodes] at hfunctions
  rw [frameSections_encodeSection (by decide) hlength]
  show (frameSection (frameSections left) .code _ p _).bodies = _
  rw [frameSection_codes hp hcodes hfunctions hlength, Framing.bodies_codeEntries,
    hrest left _ hleft, List.append_nil]
  rfl

/-- A section of names has no entries of this kind. -/
theorem names {names : List (Nat × String)}
    (hlength : (encodeFunctionNames names).length < UInt32.size) (p : Progress) :
    Yields p (encodeNames names) fun _ => [] := by
  cases names with
  | nil => exact nil p
  | cons entry entries =>
    intro fuel offset hfuel
    obtain _ | fuel := fuel
    · exact absurd hfuel (Nat.not_succ_le_zero _)
    rw [frameSections_encodeNames hlength]
    exact nil p fuel _ (Nat.zero_le fuel)

end Yields

/-! ## Offsets in code entries -/

/-- The offset of the code with an index, given that of the first code entry. -/
def codeStart (offset : Nat) (codes : List (List UInt8)) (k : Nat) (c : List UInt8) : Nat :=
  offset + ((codes.take k).flatMap encodeSized).length + (Leb128.unsigned c.length).length

theorem getElem?_entriesAt (offset : Nat) (codes : List (List UInt8)) (k : Nat) :
    (entriesAt offset codes)[k]? =
      codes[k]?.map fun c => ⟨codeStart offset codes k c, c⟩ := by
  induction codes generalizing offset k with
  | nil => rfl
  | cons c codes ih =>
    cases k with
    | zero => simp [entriesAt, codeStart]
    | succ k => simp [entriesAt, codeStart, ih, Nat.add_assoc]

/-- Code ends before later code starts. -/
theorem codeStart_add_length_le {codes : List (List UInt8)} {k k' : Nat} {c : List UInt8}
    (hk : k < k') (hc : codes[k]? = some c) (offset : Nat) (c' : List UInt8) :
    codeStart offset codes k c + c.length ≤ codeStart offset codes k' c' := by
  obtain ⟨hlt, hget⟩ := List.getElem?_eq_some_iff.1 hc
  have htake : (codes.take (k + 1)).flatMap encodeSized =
      (codes.take k).flatMap encodeSized ++ encodeSized c := by
    rw [List.take_add_one, hc, List.flatMap_append]
    simp
  obtain ⟨later, hlater⟩ : codes.take (k + 1) <+: codes.take k' := List.take_prefix_take_left hk
  have hlength : ((codes.take k).flatMap encodeSized).length + (encodeSized c).length ≤
      ((codes.take k').flatMap encodeSized).length := by
    rw [← hlater, List.flatMap_append, List.length_append, htake, List.length_append]
    exact Nat.le_add_right _ _
  rw [encodeSized, List.length_append] at hlength
  unfold codeStart
  omega

namespace Image

variable {image : Image}

/-- The bytes in front of the first code entry. -/
def beforeCodes (image : Image) : List UInt8 :=
  header ++
    (encodeEntries 0x01 (image.types.map FuncType.encode) ++
    (encodeEntries 0x03 (image.functions.map Leb128.unsigned) ++
    (encodeEntries 0x07 (image.exports.map Export.encode) ++
    0x0a :: (Leb128.unsigned (encodeVec (image.codes.map (encodeSized ·.encode))).length ++
    Leb128.unsigned image.codes.length))))

/-- The bytes in front of the code with an index: the entries before it, and its own size. -/
def beforeCode (image : Image) (k : Nat) (c : Code) : List UInt8 :=
  image.beforeCodes ++ (image.codes.take k).flatMap (encodeSized ·.encode) ++
    Leb128.unsigned c.encode.length

/-- The offset is that of a byte of the code with an index. -/
def InCode (image : Image) (k offset : Nat) : Prop :=
  ∃ c, image.codes[k]? = some c ∧ (image.beforeCode k c).length ≤ offset ∧
    offset < (image.beforeCode k c).length + c.encode.length

/-- The bytes in front of code are followed by the code. -/
theorem encode_eq_beforeCode {k : Nat} {c : Code} (hc : image.codes[k]? = some c) :
    ∃ behind, image.encode = image.beforeCode k c ++ c.encode ++ behind := by
  obtain ⟨hlt, hget⟩ := List.getElem?_eq_some_iff.1 hc
  have hne : image.codes ≠ [] := List.ne_nil_of_length_pos (Nat.zero_lt_of_lt hlt)
  have hcodes : (image.codes.map (encodeSized ·.encode)).flatten =
      (image.codes.take k).flatMap (encodeSized ·.encode) ++
        (Leb128.unsigned c.encode.length ++ (c.encode ++
          (image.codes.drop (k + 1)).flatMap (encodeSized ·.encode))) := by
    conv => lhs; rw [← List.take_append_drop k image.codes, List.drop_eq_getElem_cons hlt, hget]
    simp [encodeSized, List.flatMap_def]
  have hsection : encodeEntries 0x0a (image.codes.map (encodeSized ·.encode)) =
      0x0a :: (Leb128.unsigned (encodeVec (image.codes.map (encodeSized ·.encode))).length ++
        (Leb128.unsigned image.codes.length ++
          (image.codes.map (encodeSized ·.encode)).flatten)) := by
    simp [encodeEntries, hne, encodeSection, encodeSized, encodeVec]
  refine ⟨(image.codes.drop (k + 1)).flatMap (encodeSized ·.encode) ++ encodeNames image.names, ?_⟩
  unfold encode beforeCode beforeCodes
  rw [hsection, hcodes]
  simp only [List.append_assoc, List.cons_append]

theorem length_beforeCode (k : Nat) (c : Code) : (image.beforeCode k c).length =
    codeStart image.beforeCodes.length (image.codes.map Code.encode) k c.encode := by
  simp [beforeCode, codeStart, List.flatMap_map, ← List.map_take, Nat.add_assoc]

/-- An offset lies in the code of one function at most. -/
theorem InCode.unique {k k' offset : Nat} (h : image.InCode k offset)
    (h' : image.InCode k' offset) : k = k' := by
  obtain ⟨c, hc, hle, hlt⟩ := h
  obtain ⟨c', hc', hle', hlt'⟩ := h'
  rw [length_beforeCode] at hle hlt hle' hlt'
  have hmap : (image.codes.map Code.encode)[k]? = some c.encode := by simp [hc]
  have hmap' : (image.codes.map Code.encode)[k']? = some c'.encode := by simp [hc']
  rcases Nat.lt_trichotomy k k' with hk | hk | hk
  · have := codeStart_add_length_le hk hmap image.beforeCodes.length c'.encode
    omega
  · exact hk
  · have := codeStart_add_length_le hk hmap' image.beforeCodes.length c.encode
    omega

/-- Framing finds the codes of an image in order, behind the bytes that come before them. -/
theorem codeEntries_encode (h : image.SizesFit)
    (hcounts : image.functions.length = image.codes.length) :
    codeEntries image.encode =
      entriesAt image.beforeCodes.length (image.codes.map Code.encode) := by
  have hlength : (image.codes.map Code.encode).length = image.functions.length := by
    rw [List.length_map, hcounts]
  have hmap := image.map_encodeSized_codes
  have hsizes := h.codes
  rw [hmap] at hsizes
  have hcodes := Yields.codes image.passed_afterExports
    (hlength ▸ image.ready_afterExports.functions) hsizes (Yields.names h.names _)
  have hexports := Yields.entries h.listed_exports image.passed_afterFunctions hcodes
  have hfunctions := Yields.entries h.listed_functions image.passed_afterTypes hexports
  have htypes := Yields.entries h.listed_types (Nat.zero_le _) hfunctions
  have hoffset : image.beforeCodes.length = Yields.codeOffset
      (8 + (encodeEntries 0x01 (image.types.map FuncType.encode)).length +
        (encodeEntries 0x03 (image.functions.map Leb128.unsigned)).length +
        (encodeEntries 0x07 (image.exports.map Export.encode)).length)
      (image.codes.map Code.encode) := by
    have hheader : header.length = 8 := rfl
    simp only [beforeCodes, hmap, Yields.codeOffset, contentsOffset, List.length_append,
      List.length_cons, List.length_map, hheader]
    omega
  unfold encode
  rw [List.append_assoc, List.append_assoc, List.append_assoc, List.append_assoc, hmap, hoffset]
  exact htypes.codeEntries

theorem getElem?_codeEntries (h : image.SizesFit)
    (hcounts : image.functions.length = image.codes.length) (k : Nat) :
    (codeEntries image.encode)[k]? =
      image.codes[k]?.map fun c => ⟨(image.beforeCode k c).length, c.encode⟩ := by
  rw [codeEntries_encode h hcounts, getElem?_entriesAt, List.getElem?_map, Option.map_map]
  simp only [Function.comp_def, length_beforeCode]

/-- A function is found at an offset exactly if its code has a byte there. -/
theorem functionAt?_eq_some_iff (h : image.SizesFit)
    (hcounts : image.functions.length = image.codes.length) (k offset : Nat) :
    functionAt? image.encode offset = some k ↔ image.InCode k offset := by
  have hcovers : ∀ k, image.InCode k offset ↔
      ∃ body, (codeEntries image.encode)[k]? = some body ∧ body.covers offset = true := by
    intro k
    rw [getElem?_codeEntries h hcounts]
    cases hc : image.codes[k]? <;> simp [InCode, Cursor.covers, hc]
  rw [hcovers]
  unfold functionAt?
  constructor
  · intro hfind
    obtain ⟨hlt, hbody, -⟩ := List.findIdx?_eq_some_iff_getElem.1 hfind
    exact ⟨_, List.getElem?_eq_getElem hlt, hbody⟩
  · rintro ⟨body, hbody, hoffset⟩
    obtain ⟨hlt, rfl⟩ := List.getElem?_eq_some_iff.1 hbody
    refine List.findIdx?_eq_some_iff_getElem.2 ⟨hlt, hoffset, fun j hj hother => ?_⟩
    have hin := (hcovers j).2 ⟨_, List.getElem?_eq_getElem (Nat.lt_trans hj hlt), hother⟩
    exact Nat.ne_of_lt hj (hin.unique ((hcovers k).2 ⟨_, hbody, hoffset⟩))

/-- No function is found at an offset exactly if it lies between the codes or outside of them. -/
theorem functionAt?_eq_none_iff (h : image.SizesFit)
    (hcounts : image.functions.length = image.codes.length) (offset : Nat) :
    functionAt? image.encode offset = none ↔ ∀ k, ¬image.InCode k offset := by
  simp only [Option.eq_none_iff_forall_ne_some, ← functionAt?_eq_some_iff h hcounts, ne_eq]

end Image

end TreeWasm.Wasm
