-- SUMMARY: Which beginnings of the bytes of an image are accepted, given that all of them are.
import TreeWasm.Proofs.Binary.Sections
import TreeWasm.Proofs.Validation.Image
import TreeWasm.Proofs.Validation.Truncation

/-!
# Beginnings of an image

The beginning of a module is accepted only if it ends with a section, and if by then the functions
that are announced have code (`check_take_iff`). The sections are followed one by one. What is
carried along is the list of sections that are behind (`EndsComplete`); what the checker knows by
then is left open, as it is enough that the bytes are accepted as a whole.
-/

namespace TreeWasm.Wasm

open Validation

/-! ## Sections one by one -/

/-- The bytes of sections in a row. -/
def sectionBytes (sections : List (UInt8 × List UInt8)) : List UInt8 :=
  sections.flatMap fun (id, contents) => encodeSection id contents

theorem sectionBytes_cons (id : UInt8) (xs : List UInt8) (sections : List (UInt8 × List UInt8)) :
    sectionBytes ((id, xs) :: sections) = encodeSection id xs ++ sectionBytes sections :=
  List.flatMap_cons

/-- Whatever follows the section, it is checked as if it came behind `s'` and `p'`. -/
def Passes (id : UInt8) (xs : List UInt8) (s : Summary) (p : Progress) (offset : Nat)
    (s' : Summary) (p' : Progress) : Prop :=
  ∀ fuel ys, checkRest s (frameSections (fuel + 1) p ⟨offset, encodeSection id xs ++ ys⟩) =
    checkRest s' (frameSections fuel p' ⟨offset + (encodeSection id xs).length, ys⟩)

/-- The bytes from an offset on are accepted. -/
def Passing (s : Summary) (p : Progress) (offset : Nat) (bytes : List UInt8) : Prop :=
  ∃ fuel, bytes.length ≤ fuel ∧ checkRest s (frameSections fuel p ⟨offset, bytes⟩) = .ok ()

/-- Nothing more needs to follow. -/
def Closes (s : Summary) (p : Progress) : Prop :=
  p.checkCodes 0 = .ok () ∧ p.checkData 0 = .ok () ∧ checkPending s = .ok ()

variable {s s' : Summary} {p p' : Progress} {offset fuel : Nat} {id : UInt8} {xs ys : List UInt8}

theorem Progress.checkCodes_eq_ok_iff (p : Progress) (offset : Nat) :
    p.checkCodes offset = .ok () ↔ p.checkCodes 0 = .ok () := by
  unfold Progress.checkCodes
  split <;> try split
  all_goals simp

theorem Progress.checkData_eq_ok_iff (p : Progress) (offset : Nat) :
    p.checkData offset = .ok () ↔ p.checkData 0 = .ok () := by
  unfold Progress.checkData
  split <;> try split
  all_goals simp

theorem fault_eq_none_of_checkRest {f : Framing} (h : checkRest s f = .ok ()) :
    f.fault = none := by
  obtain ⟨s', -, h⟩ := bind_eq_ok_iff.1 h
  cases hfault : f.fault with
  | none => rfl
  | some fault =>
    rw [hfault] at h
    cases h

theorem checkRest_frameSections_nil (fuel offset : Nat) :
    checkRest s (frameSections fuel p ⟨offset, []⟩) = .ok () ↔ Closes s p := by
  have hend : frameSections fuel p ⟨offset, []⟩ = frameEnd p offset := by
    cases fuel <;> rfl
  rw [hend, Closes, ← p.checkCodes_eq_ok_iff offset, ← p.checkData_eq_ok_iff offset]
  have hcomplete (hcodes : p.checkCodes offset = .ok ()) (hdata : p.checkData offset = .ok ()) :
      checkRest s (frameEnd p offset) = checkPending s := by
    simp only [frameEnd, hcodes, hdata, Framing.andThen, checkRest_complete]
  constructor
  · intro h
    have hfault := fault_eq_none_of_checkRest h
    obtain ⟨⟨⟩, hcodes, hfault⟩ := Framing.andThen_fault_eq_none hfault
    obtain ⟨⟨⟩, hdata, -⟩ := Framing.andThen_fault_eq_none hfault
    exact ⟨hcodes, hdata, (hcomplete hcodes hdata).symm.trans h⟩
  · rintro ⟨hcodes, hdata, hpending⟩
    exact (hcomplete hcodes hdata).trans hpending

theorem length_encodeSection_pos (id : UInt8) (xs : List UInt8) :
    0 < (encodeSection id xs).length := Nat.succ_pos _

namespace Passing

theorem exists_fuel (h : Passing s p offset (encodeSection id xs ++ ys)) :
    ∃ fuel, ys.length ≤ fuel ∧
      checkRest s (frameSections (fuel + 1) p ⟨offset, encodeSection id xs ++ ys⟩) = .ok () := by
  obtain ⟨fuel, hfuel, hok⟩ := h
  obtain ⟨left, rfl, hleft⟩ := exists_fuel_of_encodeSection hfuel
  exact ⟨left, hleft, hok⟩

/-- The size of a section that is accepted is an integer of 32 bits. -/
theorem length_lt (h : Passing s p offset (encodeSection id xs ++ ys)) :
    xs.length < UInt32.size := by
  obtain ⟨fuel, -, hok⟩ := h.exists_fuel
  have hfault := fault_eq_none_of_checkRest hok
  rw [frameSections, if_neg (by simp [encodeSection])] at hfault
  obtain ⟨⟨⟨id', size⟩, c⟩, hheader, -⟩ := Framing.andThen_fault_eq_none hfault
  exact (Reader.sectionHeader_of_prefix (List.prefix_refl _) hheader).2.1

theorem behind (h : Passing s p offset (encodeSection id xs ++ ys))
    (hpass : Passes id xs s p offset s' p') :
    Passing s' p' (offset + (encodeSection id xs).length) ys := by
  obtain ⟨fuel, hfuel, hok⟩ := h.exists_fuel
  exact ⟨fuel, hfuel, (hpass fuel ys).symm.trans hok⟩

theorem closes (h : Passing s p offset []) : Closes s p := by
  obtain ⟨fuel, -, hok⟩ := h
  exact (checkRest_frameSections_nil fuel offset).1 hok

/-- Entries of a section that is accepted are accepted whatever follows them. -/
theorem entries {kind : Section} {α : Type} {encode : α → List UInt8} {as : List α}
    (h : Passing s p offset (encodeSection id (encodeVec (as.map encode)) ++ ys))
    (hl : Listed kind id encode as) (has : as.length ≠ 0) (hp : p.passed ≤ kind.place) :
    ∃ s' start c, checkEntries kind start as.length c s = .ok s' ∧
      Passes id (encodeVec (as.map encode)) s p offset s' (p.after kind as.length) := by
  obtain ⟨fuel, -, hok⟩ := h.exists_fuel
  rw [hl.frameSections_encodeSection hp has, checkRest_cons] at hok
  obtain ⟨s', hcheck, -⟩ := bind_eq_ok_iff.1 hok
  refine ⟨s', _, _, hcheck, fun fuel ys => ?_⟩
  rw [hl.frameSections_encodeSection hp has, checkRest_cons_of_ok hcheck]

end Passing

theorem passes_codes {codes : List (List UInt8)} (hp : p.passed ≤ Section.code.place)
    (hcodes : codes.length ≠ 0) (hfunctions : p.functions? = some codes.length)
    (hlength : (encodeVec (codes.map encodeSized)).length < UInt32.size) :
    ∃ s', Passes 0x0a (encodeVec (codes.map encodeSized)) s p offset s'
      (p.after .code codes.length) := by
  let start := contentsOffset offset (encodeVec (codes.map encodeSized))
  let found := entriesAt (start + (Leb128.unsigned codes.length).length) codes
  refine ⟨{ s with pending := found.reverse ++ s.pending }, fun fuel ys => ?_⟩
  rw [frameSections_encodeSection (by decide) hlength]
  show checkRest s (frameSection (frameSections fuel) .code _ p _) = _
  rw [frameSection_codes hp hcodes hfunctions hlength, checkRest_codeEntries, contentsOffset_add]

theorem passes_names {names : List (Nat × String)}
    (hlength : (encodeFunctionNames names).length < UInt32.size) :
    Passes 0x00 (encodeFunctionNames names) s p offset s p := by
  intro fuel ys
  rw [frameSections_encodeFunctionNames hlength]

/-! ## Beginnings of sections -/

/-- Functions that are announced have code. -/
def Complete (ids : List UInt8) : Prop := 0x03 ∈ ids → 0x0a ∈ ids

instance (ids : List UInt8) : Decidable (Complete ids) :=
  inferInstanceAs (Decidable (0x03 ∈ ids → 0x0a ∈ ids))

/-- Behind those with the ids `done`, the first `n` bytes of the sections are whole sections by
which everything announced is there. -/
def EndsWhole (done : List UInt8) (sections : List (UInt8 × List UInt8)) (n : Nat) : Prop :=
  ∃ k ≤ sections.length, n = (sectionBytes (sections.take k)).length ∧
    Complete (done ++ (sections.take k).map Prod.fst)

section

variable {done : List UInt8} {sections : List (UInt8 × List UInt8)}

theorem endsWhole_nil : EndsWhole done [] 0 ↔ Complete done := by
  simp [EndsWhole, sectionBytes]

theorem length_take_succ (sections : List (UInt8 × List UInt8)) (k : Nat) :
    (sectionBytes (((id, xs) :: sections).take (k + 1))).length =
      (encodeSection id xs).length + (sectionBytes (sections.take k)).length := by
  rw [List.take_succ_cons, sectionBytes_cons, List.length_append]

/-- Before the first section ends there is a whole number of sections only if there are none. -/
theorem endsWhole_cons_of_lt {n : Nat} (h : n < (encodeSection id xs).length) :
    EndsWhole done ((id, xs) :: sections) n ↔ n = 0 ∧ Complete done := by
  constructor
  · rintro ⟨_ | k, -, hk, hcomplete⟩
    · exact ⟨hk, by simpa using hcomplete⟩
    · rw [length_take_succ] at hk
      omega
  · rintro ⟨rfl, hcomplete⟩
    exact ⟨0, Nat.zero_le _, rfl, by simpa using hcomplete⟩

theorem endsWhole_cons_add (n : Nat) :
    EndsWhole done ((id, xs) :: sections) ((encodeSection id xs).length + n) ↔
      EndsWhole (done ++ [id]) sections n := by
  have hpos := length_encodeSection_pos id xs
  constructor
  · rintro ⟨_ | k, hk, hn, hcomplete⟩
    · simp only [List.take_zero, sectionBytes, List.flatMap_nil, List.length_nil] at hn
      omega
    · refine ⟨k, Nat.le_of_succ_le_succ hk, ?_, by simpa using hcomplete⟩
      rw [length_take_succ] at hn
      omega
  · rintro ⟨k, hk, rfl, hcomplete⟩
    refine ⟨k + 1, Nat.succ_le_succ hk, (length_take_succ sections k).symm, ?_⟩
    simpa using hcomplete

end

/-- Of the sections behind those with the ids `done`, the beginnings that are accepted are those of
whole sections by which everything announced is there. -/
def EndsComplete (s : Summary) (p : Progress) (offset : Nat) (done : List UInt8)
    (sections : List (UInt8 × List UInt8)) : Prop :=
  ∀ n ≤ (sectionBytes sections).length, ∀ fuel, n ≤ fuel →
    (checkRest s (frameSections fuel p ⟨offset, (sectionBytes sections).take n⟩) = .ok () ↔
      EndsWhole done sections n)

namespace EndsComplete

variable {done : List UInt8} {sections : List (UInt8 × List UInt8)}

theorem nil (h : Closes s p ↔ Complete done) : EndsComplete s p offset done [] := by
  intro n hn fuel _
  obtain rfl : n = 0 := Nat.le_zero.1 hn
  rw [List.take_zero, checkRest_frameSections_nil, h, endsWhole_nil]

theorem cons (hpass : Passes id xs s p offset s' p') (hclose : Closes s p ↔ Complete done)
    (hrest : EndsComplete s' p' (offset + (encodeSection id xs).length) (done ++ [id]) sections) :
    EndsComplete s p offset done ((id, xs) :: sections) := by
  intro n hn fuel hfuel
  have hpos := length_encodeSection_pos id xs
  rw [sectionBytes_cons] at hn ⊢
  -- Either the first section is not all there, or it is passed and the rest is cut off.
  by_cases hcut : n < (encodeSection id xs).length
  · rw [endsWhole_cons_of_lt hcut, List.take_append_of_le_length (Nat.le_of_lt hcut)]
    by_cases hzero : n = 0
    · rw [hzero, List.take_zero, checkRest_frameSections_nil, hclose]
      simp
    · have hlength : ((encodeSection id xs).take n).length = n := by
        rw [List.length_take]
        omega
      have hfuel : ((encodeSection id xs).take n).length ≤ fuel := by omega
      have hfault := frameSections_of_cut (List.take_prefix n (encodeSection id xs))
        (List.ne_nil_of_length_pos (by omega)) (by omega) hfuel p offset
      simp only [hzero, false_and, iff_false]
      exact fun h => hfault (fault_eq_none_of_checkRest h)
  · obtain ⟨m, rfl⟩ := Nat.exists_eq_add_of_le (Nat.not_lt.1 hcut)
    obtain ⟨left, rfl⟩ : ∃ left, fuel = left + 1 := ⟨fuel - 1, by omega⟩
    rw [List.length_append] at hn
    rw [List.take_length_add_append, hpass, hrest m (by omega) left (by omega),
      endsWhole_cons_add]

end EndsComplete

/-- A module has a header of eight bytes. -/
theorem frame_of_length_lt {bytes : List UInt8} (h : bytes.length < 8) :
    (frame bytes).fault ≠ none := by
  intro hfault
  obtain ⟨⟨isComponent, c⟩, hpreamble, -⟩ := Framing.andThen_fault_eq_none hfault
  obtain ⟨_, _, hstart, hpreamble⟩ := Reader.bind_eq_ok hpreamble
  cases hstart
  obtain ⟨found, c₁, hmagic, hpreamble⟩ := Reader.bind_eq_ok hpreamble
  have hfour : 4 ≤ bytes.length := by
    refine Nat.le_of_not_lt fun hlt => ?_
    rw [take_of_length_lt (c := ⟨0, bytes⟩) hlt] at hmagic
    cases hmagic
  have hadvance := Reader.Advances.take 4 _ _ _ hmagic
  have hoffset : c₁.offset = 4 := by
    unfold Reader.take at hmagic
    dsimp only at hmagic
    split at hmagic
    · cases hmagic
    · cases hmagic
      rfl
  dsimp only at hpreamble hadvance
  split at hpreamble
  · cases hpreamble
  · obtain ⟨version, c₂, hversion, -⟩ := Reader.bind_eq_ok hpreamble
    obtain ⟨_, _, htake, -⟩ := Reader.bind_eq_ok hversion
    rw [take_of_length_lt (c := c₁) (by omega)] at htake
    cases htake

theorem length_encodeSections (sections : List (UInt8 × List UInt8)) :
    (encodeSections sections).length = 8 + (sectionBytes sections).length := List.length_append

theorem passing_of_check {sections : List (UInt8 × List UInt8)}
    (h : check (encodeSections sections) = .ok ()) :
    Passing {} {} 8 (sectionBytes sections) := by
  refine ⟨(encodeSections sections).length, ?_, ?_⟩
  · rw [length_encodeSections]
    exact Nat.le_add_left _ _
  · have hframe := frame_header_append (sectionBytes sections)
    rw [check, checkFraming_eq] at h
    exact hframe ▸ h

/-- Of the bytes of sections, the beginnings that are accepted are those of whole sections by which
everything announced is there. -/
theorem check_take_iff {sections : List (UInt8 × List UInt8)}
    (h : EndsComplete {} {} 8 [] sections) {n : Nat} (hn : n ≤ (encodeSections sections).length) :
    check ((encodeSections sections).take n) = .ok () ↔
      ∃ k ≤ sections.length, n = (encodeSections (sections.take k)).length ∧
        Complete ((sections.take k).map Prod.fst) := by
  by_cases hheader : n < 8
  · have hlength : ((encodeSections sections).take n).length < 8 := by
      rw [List.length_take]
      omega
    constructor
    · intro hok
      exact (frame_of_length_lt hlength (fault_eq_none_of_checkRest hok)).elim
    · rintro ⟨k, -, hk, -⟩
      rw [length_encodeSections] at hk
      omega
  · obtain ⟨m, rfl⟩ := Nat.exists_eq_add_of_le (Nat.not_lt.1 hheader)
    rw [length_encodeSections] at hn
    have htake : (encodeSections sections).take (8 + m) =
        header ++ (sectionBytes sections).take m :=
      @List.take_length_add_append _ header _ m
    have hfuel : m ≤ (header ++ (sectionBytes sections).take m).length := by
      rw [List.length_append, List.length_take]
      omega
    rw [htake, check, checkFraming_eq, frame_header_append, h m (by omega) _ hfuel, EndsWhole]
    simp only [length_encodeSections, List.nil_append, Nat.add_left_cancel_iff]

/-! ## Images -/

theorem foldEntries_preserves {σ : Type} {entry : σ → Reader σ} {P : σ → Prop}
    (hentry : ∀ s c s' c', P s → entry s c = .ok (s', c') → P s') {n : Nat} {s s' : σ}
    {c c' : Cursor} (hs : P s) (h : foldEntries entry n s c = .ok (s', c')) : P s' := by
  induction n generalizing s c with
  | zero =>
    cases h
    exact hs
  | succ n ih =>
    obtain ⟨s₁, c₁, hfirst, hrest⟩ := Reader.bind_eq_ok h
    exact ih (hentry _ _ _ _ hs hfirst) hrest

/-- Types put no code aside. -/
theorem pending_of_checkEntries_types {start count : Nat} {c : Cursor}
    (h : checkEntries .types start count c s = .ok s') : s'.pending = s.pending := by
  have hentry (t : Summary) (c : Cursor) (t' : Summary) (c' : Cursor)
      (hpending : t.pending = s.pending) (ht : typeEntry t c = .ok (t', c')) :
      t'.pending = s.pending := by
    obtain ⟨_, _, -, ht⟩ := Reader.bind_eq_ok ht
    obtain ⟨_, _, -, ht⟩ := Reader.bind_eq_ok ht
    cases ht
    exact hpending
  obtain ⟨_, -, h⟩ := bind_eq_ok_iff.1 h
  obtain ⟨⟨t, c'⟩, hfold, h⟩ := bind_eq_ok_iff.1 h
  dsimp only at h
  split at h
  · cases h
    exact foldEntries_preserves hentry rfl hfold
  · cases h

namespace Image

/-- The sections of an image from its code on. -/
def codeSections (image : Image) : List (UInt8 × List UInt8) :=
  (0x0a, encodeVec (image.codes.map (encodeSized ·.encode))) :: sectionOfNames image.names

/-- The sections of an image from its exports on. -/
def exportSections (image : Image) : List (UInt8 × List UInt8) :=
  sectionOf 0x07 (image.exports.map Export.encode) ++ image.codeSections

/-- Behind the functions and in front of their code, nothing may end. -/
theorem Ready.not_closes {image : Image} (hp : image.Ready p) (hf : image.functions ≠ []) :
    ¬Closes s p := by
  have hlength : image.functions.length ≠ 0 := mt List.eq_nil_of_length_eq_zero hf
  rintro ⟨hcodes, -, -⟩
  simp only [Progress.checkCodes, hp.functions, hp.codes, if_neg hlength] at hcodes
  cases hcodes

section

variable {image : Image} (hcounts : image.functions.length = image.codes.length)
  (hf : image.functions ≠ [])
include hcounts hf

theorem endsComplete_codeSections (hp : image.Ready p) (hplace : p.passed ≤ Section.code.place)
    {done : List UInt8} (hdone : ¬Complete done)
    (h : Passing s p offset (sectionBytes image.codeSections)) :
    EndsComplete s p offset done image.codeSections := by
  have hlength : (image.codes.map Code.encode).length = image.functions.length := by
    rw [List.length_map, hcounts]
  have hne : image.functions.length ≠ 0 := mt List.eq_nil_of_length_eq_zero hf
  unfold codeSections at h ⊢
  rw [sectionBytes_cons, image.map_encodeSized_codes] at h
  rw [image.map_encodeSized_codes]
  have hfunctions : p.functions? = some (image.codes.map Code.encode).length := by
    rw [hp.functions, if_neg hne, hlength]
  obtain ⟨s', hpass⟩ : ∃ s', Passes _ _ s p offset s' _ :=
    passes_codes hplace (hlength ▸ hne) hfunctions h.length_lt
  have hbehind := h.behind hpass
  refine .cons hpass (iff_of_false (hp.not_closes hf) hdone) ?_
  have hcomplete : Complete (done ++ [0x0a]) := fun _ => by simp
  by_cases hnames : image.names.isEmpty
  · rw [sectionOfNames, if_pos hnames] at hbehind ⊢
    exact .nil (iff_of_true hbehind.closes hcomplete)
  · rw [sectionOfNames, if_neg hnames] at hbehind ⊢
    rw [sectionBytes_cons] at hbehind
    have hend := (hbehind.behind (passes_names hbehind.length_lt)).closes
    have hcomplete' : Complete (done ++ [0x0a] ++ [0x00]) := fun _ => by simp
    exact .cons (passes_names hbehind.length_lt) (iff_of_true hend hcomplete)
      (.nil (iff_of_true hend hcomplete'))

theorem endsComplete_exportSections
    (h : Passing s image.afterFunctions offset (sectionBytes image.exportSections)) :
    EndsComplete s image.afterFunctions offset [0x01, 0x03] image.exportSections := by
  unfold exportSections at h ⊢
  by_cases hexports : (image.exports.map Export.encode).isEmpty
  · rw [sectionOf, if_pos hexports] at h ⊢
    have hplace : image.afterFunctions.passed ≤ Section.code.place :=
      Nat.le_trans image.passed_afterFunctions (by decide)
    exact endsComplete_codeSections hcounts hf image.ready_afterFunctions hplace (by decide) h
  · rw [sectionOf, if_neg hexports] at h ⊢
    rw [List.singleton_append] at h ⊢
    rw [sectionBytes_cons] at h
    have hl : Listed .exports 0x07 Export.encode image.exports :=
      ⟨.inr (.inr rfl), ⟨rfl, by decide⟩, Export.encode_ne_nil, h.length_lt⟩
    obtain ⟨s', _, _, -, hpass⟩ := h.entries hl (by simpa using hexports)
      image.passed_afterFunctions
    have hdone : ¬Complete ([0x01, 0x03] ++ [0x07]) := by decide
    have hcode := endsComplete_codeSections hcounts hf image.ready_afterExports
      image.passed_afterExports hdone (h.behind hpass)
    exact .cons hpass (iff_of_false (image.ready_afterFunctions.not_closes hf) (by decide)) hcode

/-- Of an image that is accepted, the beginnings that are accepted are known by the ids. -/
theorem endsComplete_sections (ht : image.types ≠ [])
    (h : Passing {} {} offset (sectionBytes image.sections)) :
    EndsComplete {} {} offset [] image.sections := by
  have hc : image.codes ≠ [] := by
    rintro hnil
    rw [hnil] at hcounts
    exact hf (List.eq_nil_of_length_eq_zero hcounts)
  have hsections : image.sections =
      (0x01, encodeVec (image.types.map FuncType.encode)) ::
        (0x03, encodeVec (image.functions.map Leb128.unsigned)) :: image.exportSections := by
    simp [sections, sectionOf, exportSections, codeSections, ht, hf, hc]
  rw [hsections, sectionBytes_cons] at h
  have htypes : Listed .types 0x01 FuncType.encode image.types :=
    ⟨.inl rfl, ⟨rfl, by decide⟩, FuncType.encode_ne_nil, h.length_lt⟩
  obtain ⟨s₁, start, c, hcheck, hpass₁⟩ :=
    h.entries htypes (mt List.eq_nil_of_length_eq_zero ht) (Nat.zero_le _)
  have h₁ := h.behind hpass₁
  rw [sectionBytes_cons] at h₁
  have hfunctions : Listed .functions 0x03 Leb128.unsigned image.functions :=
    ⟨.inr (.inl rfl), ⟨rfl, by decide⟩, Leb128.unsigned_ne_nil, h₁.length_lt⟩
  obtain ⟨s₂, _, _, -, hpass₂⟩ :=
    h₁.entries hfunctions (mt List.eq_nil_of_length_eq_zero hf) image.passed_afterTypes
  have hpending : checkPending s₁ = .ok () := by
    rw [checkPending, pending_of_checkEntries_types hcheck]
    rfl
  have hclose₁ : Closes s₁ image.afterTypes := by
    have hknown : image.afterTypes.functions? = none := Progress.functions?_after (by decide)
    have hcodes : image.afterTypes.codes? = none := Progress.codes?_after (by decide)
    refine ⟨?_, Progress.checkData_after 0, hpending⟩
    rw [Progress.checkCodes, hknown, hcodes]
  have hrest := endsComplete_exportSections hcounts hf (h₁.behind hpass₂)
  rw [hsections]
  refine .cons hpass₁ (iff_of_true ⟨rfl, rfl, rfl⟩ (by decide)) ?_
  exact .cons hpass₂ (iff_of_true hclose₁ (by decide)) hrest

end

end Image

end TreeWasm.Wasm
