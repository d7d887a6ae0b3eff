-- SUMMARY: A binary module is read back as the contents that it was written from.
import TreeWasm.Proofs.Binary.Code
import TreeWasm.Wasm.Image

/-!
# Images in binaries

Reading the bytes of an image gives back what the image says, section by section, and consumes them
exactly (`Image.Fits.readModule_eq`). All that this takes is that every number in the binary is an
integer of 32 bits (`Image.Fits`), which includes the sizes of the sections, and that code is well
nested.
-/

namespace TreeWasm.Wasm

/-! ## Contents -/

/-- A section without entries is left out. -/
def Contents.unlessEmpty (make : List α → Contents) (entries : List α) : List Contents :=
  if entries.isEmpty then [] else [make entries]

/-- The name of a function in a section of names. -/
def encodeFunctionName (entry : Nat × String) : List UInt8 :=
  Leb128.unsigned entry.1 ++ encodeName entry.2

/-- What a section of names holds. -/
def encodeFunctionNames (names : List (Nat × String)) : List UInt8 :=
  encodeName "name" ++ encodeSection 0x01 (encodeVec (names.map encodeFunctionName))

namespace Image

/-- The sections of an image. -/
def contents (image : Image) : List Contents :=
  Contents.unlessEmpty .types image.types ++
    (Contents.unlessEmpty .functions image.functions ++
    (Contents.unlessEmpty .exports image.exports ++
    (Contents.unlessEmpty .codes (image.codes.map Code.toBody) ++
    Contents.unlessEmpty .names image.names)))

/-- The sizes of the sections are integers of 32 bits. -/
structure SizesFit (image : Image) : Prop where
  types : (encodeVec (image.types.map FuncType.encode)).length < UInt32.size
  functions : (encodeVec (image.functions.map Leb128.unsigned)).length < UInt32.size
  exports : (encodeVec (image.exports.map Export.encode)).length < UInt32.size
  codes : (encodeVec (image.codes.map (encodeSized ·.encode))).length < UInt32.size
  names : (encodeFunctionNames image.names).length < UInt32.size

/-- Every number that the binary contains is an integer of 32 bits. -/
structure Fits (image : Image) : Prop extends SizesFit image where
  typeIndices : ∀ index ∈ image.functions, index < UInt32.size
  exported : ∀ e ∈ image.exports, e.function < UInt32.size
  counts : ∀ c ∈ image.codes, ∀ run ∈ c.locals, run.count < UInt32.size
  operators : ∀ c ∈ image.codes, ∀ op ∈ c.body, op.Fits
  named : ∀ entry ∈ image.names, entry.1 < UInt32.size

/-- The code of every function ends where its body does. -/
def Nested (image : Image) : Prop := ∀ c ∈ image.codes, Nests [false] c.operators []

end Image

/-! ## Lengths -/

/-- An entry is no longer than the sequence it is part of. -/
theorem length_le_length_encodeVec {entries : List (List UInt8)} {e : List UInt8}
    (h : e ∈ entries) : e.length ≤ (encodeVec entries).length := by
  have hflat : e.length ≤ entries.flatten.length := by
    obtain ⟨xs, ys, rfl⟩ := List.append_of_mem h
    simp only [List.flatten_append, List.flatten_cons, List.length_append]
    omega
  unfold encodeVec
  rw [List.length_append]
  omega

theorem count_le_length_encodeVec {entries : List (List UInt8)} (h : ∀ e ∈ entries, e ≠ []) :
    entries.length ≤ (encodeVec entries).length := by
  have := length_le_length_flatten h
  unfold encodeVec
  rw [List.length_append]
  omega

theorem length_le_length_encodeSized (bytes : List UInt8) :
    bytes.length ≤ (encodeSized bytes).length := by
  unfold encodeSized
  rw [List.length_append]
  omega

theorem Leb128.unsigned_ne_nil (n : Nat) : unsigned n ≠ [] := by
  unfold unsigned
  split <;> exact nofun

theorem FuncType.encode_ne_nil (t : FuncType) : t.encode ≠ [] := List.cons_ne_nil _ _

theorem LocalRun.encode_ne_nil (run : LocalRun) : run.encode ≠ [] :=
  List.append_ne_nil_of_right_ne_nil _ run.type.encode_ne_nil

theorem Export.encode_ne_nil (e : Export) : e.encode ≠ [] :=
  List.append_ne_nil_of_right_ne_nil _ (List.cons_ne_nil _ _)

theorem encodeFunctionName_ne_nil (entry : Nat × String) : encodeFunctionName entry ≠ [] :=
  List.append_ne_nil_of_left_ne_nil (Leb128.unsigned_ne_nil _) _

theorem encodeSized_ne_nil (bytes : List UInt8) : encodeSized bytes ≠ [] :=
  List.append_ne_nil_of_left_ne_nil (Leb128.unsigned_ne_nil _) _

/-- There are fewer entries than 2 to the 32 if that is so for their bytes. -/
theorem count_lt_of_encodeVec {encode : α → List UInt8} (hne : ∀ a, encode a ≠ []) {as : List α}
    (h : (encodeVec (as.map encode)).length < UInt32.size) : as.length < UInt32.size := by
  have hmap : ∀ e ∈ as.map encode, e ≠ [] := by
    intro e he
    obtain ⟨a, -, rfl⟩ := List.mem_map.1 he
    exact hne a
  have := count_le_length_encodeVec hmap
  rw [List.length_map] at this
  omega

theorem Code.length_locals_lt {c : Code} (h : c.encode.length < UInt32.size) :
    c.locals.length < UInt32.size := by
  rw [c.encode_eq, List.length_append] at h
  exact count_lt_of_encodeVec LocalRun.encode_ne_nil (by omega)

theorem length_lt_of_encodeVec {encode : α → List UInt8} {as : List α}
    (h : (encodeVec (as.map encode)).length < UInt32.size) {a : α} (ha : a ∈ as) :
    (encode a).length < UInt32.size :=
  Nat.lt_of_le_of_lt (length_le_length_encodeVec (List.mem_map_of_mem ha)) h

/-! ## Entries -/

namespace Reads

theorem expect (b : UInt8) (what : String) : Reads (Reader.expect b what) [b] () := by
  refine offset_bind fun start => byte_bind ?_
  rw [if_pos rfl]
  exact .pure ()

theorem valueTypes {ts : List ValType} (h : ts.length < UInt32.size) :
    Reads (Reader.vec Reader.valueType) (encodeVec (ts.map ValType.encode)) ts := by
  have hread :
      Reads (Reader.vec Reader.valueType) (encodeVec (ts.map ValType.encode)) (ts.map id) :=
    vec (fun t _ => valueType t) h
  rwa [List.map_id] at hread

theorem functionType {t : FuncType} (h : t.encode.length < UInt32.size) :
    Reads Reader.functionType t.encode t := by
  unfold FuncType.encode at h
  rw [List.length_cons, List.length_append] at h
  have hparams : t.params.length < UInt32.size :=
    count_lt_of_encodeVec ValType.encode_ne_nil (by omega)
  have hresults : t.results.length < UInt32.size :=
    count_lt_of_encodeVec ValType.encode_ne_nil (by omega)
  refine (expect 0x60 "type").bind ?_
  exact (valueTypes hparams).bind ((valueTypes hresults).map (.pure _))

theorem functionExport {e : Export} (h : e.encode.length < UInt32.size)
    (hf : e.function < UInt32.size) : Reads Reader.functionExport e.encode e := by
  have hname := length_le_length_encodeSized e.name.toUTF8.toList
  unfold Export.encode encodeName at h
  rw [List.length_append] at h
  refine (text (by omega)).bind ?_
  exact (expect 0x00 "external kind").bind ((u32 hf).map (.pure _))

theorem functionName {entry : Nat × String} (hi : entry.1 < UInt32.size)
    (h : (encodeFunctionName entry).length < UInt32.size) :
    Reads Reader.functionName (encodeFunctionName entry) entry := by
  have hname := length_le_length_encodeSized entry.2.toUTF8.toList
  unfold encodeFunctionName encodeName at h
  rw [List.length_append] at h
  exact (u32 hi).bind ((text (by omega)).map (.pure _))

theorem functionNames {names : List (Nat × String)} (hi : ∀ entry ∈ names, entry.1 < UInt32.size)
    (h : (encodeFunctionNames names).length < UInt32.size) :
    Reads Reader.functionNames (encodeFunctionNames names) names := by
  have hvec : (encodeVec (names.map encodeFunctionName)).length < UInt32.size := by
    have hsized := length_le_length_encodeSized (encodeVec (names.map encodeFunctionName))
    unfold encodeFunctionNames encodeSection at h
    rw [List.length_append, List.length_cons] at h
    omega
  have hname : ∀ entry ∈ names, Reads Reader.functionName (encodeFunctionName entry) (id entry) :=
    fun entry he => functionName (hi entry he) (length_lt_of_encodeVec hvec he)
  refine offset_bind fun start => (text (by decide +kernel)).bind ?_
  rw [if_pos rfl]
  refine (expect 0x01 "name").bind (within ?_ hvec)
  have hread := vec hname (count_lt_of_encodeVec encodeFunctionName_ne_nil hvec)
  rwa [List.map_id] at hread

end Reads

/-! ## Sections -/

/-- Sections are read up to the end of the bytes, behind a section of an id up to the bound. -/
def ReadsSections (bound : UInt8) (bytes : List UInt8) (contents : List Contents) : Prop :=
  ∀ last fuel offset, last ≤ bound → bytes.length ≤ fuel →
    Reader.sections fuel last ⟨offset, bytes⟩ = .ok (contents, ⟨offset + bytes.length, []⟩)

namespace ReadsSections

theorem nil (bound : UInt8) : ReadsSections bound [] [] := by
  intro last fuel offset _ _
  cases fuel <;> rfl

/-- One section, and the ones behind it. -/
theorem cons {bound id : UInt8} {xs ys : List UInt8} {c : Contents} {cs : List Contents}
    (hid : id = 0 ∨ bound < id) (h : Reads (Reader.contentsOf id) xs c)
    (hlength : xs.length < UInt32.size)
    (hrest : ReadsSections (if id = 0 then bound else id) ys cs) :
    ReadsSections bound (encodeSection id xs ++ ys) (c :: cs) := by
  intro last fuel offset hlast hfuel
  have hbytes : encodeSection id xs ++ ys = id :: (encodeSized xs ++ ys) := rfl
  rw [hbytes] at hfuel ⊢
  rw [List.length_cons, List.length_append] at hfuel
  obtain _ | fuel := fuel
  · cases hfuel
  have hid' : ¬(id ≠ 0 ∧ id ≤ last) := by
    intro ⟨hne, hle⟩
    rcases hid with rfl | hid
    · exact hne rfl
    · exact UInt8.not_le.2 (UInt8.lt_of_le_of_lt hlast hid) hle
  have hlast' : (if id = 0 then last else id) ≤ if id = 0 then bound else id := by
    split
    · exact hlast
    · exact UInt8.le_refl id
  have hwithin := h.within hlength (offset + 1) ys
  have hrest' := hrest _ fuel (offset + 1 + (encodeSized xs).length) hlast' (by omega)
  refine (Reader.bind_of_ok rfl).trans ?_
  rw [if_neg (by simp)]
  refine (Reader.bind_of_ok rfl).trans ((Reader.bind_of_ok rfl).trans ?_)
  rw [if_neg hid', Reader.bind_of_ok hwithin, Reader.bind_of_ok hrest']
  have hend : offset + 1 + (encodeSized xs).length + ys.length =
      offset + (id :: (encodeSized xs ++ ys)).length := by
    rw [List.length_cons, List.length_append]
    omega
  rw [hend]
  rfl

/-- A section of entries, or none, and the sections behind it. -/
theorem entries {α β : Type} (bound id : UInt8) {r : Reader β} {make : List β → Contents}
    {encode : α → List UInt8} {value : α → β} {as : List α} {ys : List UInt8} {cs : List Contents}
    (hid : Reader.contentsOf id = make <$> Reader.vec r) (hbound : bound < id)
    (h : ∀ a ∈ as, Reads r (encode a) (value a)) (hne : ∀ a, encode a ≠ [])
    (hlength : (encodeVec (as.map encode)).length < UInt32.size) (hrest : ReadsSections id ys cs) :
    ReadsSections bound (encodeEntries id (as.map encode) ++ ys)
      (Contents.unlessEmpty make (as.map value) ++ cs) := by
  cases as with
  | nil =>
    intro last fuel offset hlast
    exact hrest last fuel offset (UInt8.le_trans hlast (UInt8.le_of_lt hbound))
  | cons a as =>
    have hread := (Reads.vec h (count_lt_of_encodeVec hne hlength)).map_value make
    rw [← hid] at hread
    have hne : id ≠ 0 := by
      rintro rfl
      exact UInt8.not_lt_zero hbound
    refine cons (.inr hbound) hread hlength ?_
    rwa [if_neg hne]

/-- The section of names, or none, at the end. -/
theorem names (bound : UInt8) {names : List (Nat × String)}
    (hi : ∀ entry ∈ names, entry.1 < UInt32.size)
    (h : (encodeFunctionNames names).length < UInt32.size) :
    ReadsSections bound (encodeNames names) (Contents.unlessEmpty .names names) := by
  have hread := (Reads.functionNames hi h).map_value Contents.names
  cases names with
  | nil => exact nil bound
  | cons entry entries =>
    have hsection : ReadsSections bound (encodeSection 0x00 _ ++ []) [_] :=
      cons (.inl rfl) hread h (nil bound)
    rw [List.append_nil] at hsection
    exact hsection

/-- Behind the preamble there is nothing but sections. -/
theorem readModule {bytes : List UInt8} {contents : List Contents}
    (h : ReadsSections 0 bytes contents) : readModule (header ++ bytes) = .ok contents := by
  have hlength : bytes.length ≤ (header ++ bytes).length := by simp
  have hpreamble : Reader.preamble ⟨0, header ++ bytes⟩ = .ok (false, ⟨8, bytes⟩) := rfl
  unfold Wasm.readModule Reader.whole Reader.binary
  rw [Reader.bind_of_ok hpreamble, if_neg Bool.false_ne_true, h 0 _ 8 (UInt8.le_refl 0) hlength]
  rfl

end ReadsSections

/-! ## Images -/

namespace Image

theorem SizesFit.length_code {image : Image} (h : image.SizesFit) {c : Code}
    (hc : c ∈ image.codes) :
    c.encode.length < UInt32.size :=
  Nat.lt_of_le_of_lt (length_le_length_encodeSized _) (length_lt_of_encodeVec h.codes hc)

theorem Fits.code {image : Image} (h : image.Fits) {c : Code} (hc : c ∈ image.codes) : c.Fits where
  runs := Code.length_locals_lt (h.length_code hc)
  counts := h.counts c hc
  operators := h.operators c hc

/-- Reading the bytes of an image gives back what the image says, and nothing is left to read. -/
theorem Fits.readModule_eq {image : Image} (h : image.Fits) (hn : image.Nested) :
    readModule image.encode = .ok image.contents := by
  have hcode : ∀ c ∈ image.codes,
      Reads (Reader.within Reader.body) (encodeSized c.encode) c.toBody :=
    fun c hc => (Reads.body (h.code hc) (hn c hc)).within (h.length_code hc)
  have hexport : ∀ e ∈ image.exports, Reads Reader.functionExport e.encode (id e) := fun e he =>
    .functionExport (length_lt_of_encodeVec h.exports he) (h.exported e he)
  have hindex : ∀ i ∈ image.functions, Reads Reader.u32 (Leb128.unsigned i) (id i) :=
    fun i hi => .u32 (h.typeIndices i hi)
  have htype : ∀ t ∈ image.types, Reads Reader.functionType t.encode (id t) :=
    fun t ht => .functionType (length_lt_of_encodeVec h.types ht)
  have hnames := ReadsSections.names 0x0a h.named h.names
  have hcodes := ReadsSections.entries 0x07 0x0a rfl (by decide) hcode
    (fun _ => encodeSized_ne_nil _) h.codes hnames
  have hexports := ReadsSections.entries 0x03 0x07 rfl (by decide) hexport Export.encode_ne_nil
    h.exports hcodes
  have hfunctions := ReadsSections.entries 0x01 0x03 rfl (by decide) hindex Leb128.unsigned_ne_nil
    h.functions hexports
  have htypes := ReadsSections.entries 0x00 0x01 rfl (by decide) htype FuncType.encode_ne_nil
    h.types hfunctions
  rw [List.map_id, List.map_id, List.map_id] at htypes
  unfold encode
  rw [List.append_assoc, List.append_assoc, List.append_assoc, List.append_assoc]
  exact htypes.readModule

end Image

end TreeWasm.Wasm
