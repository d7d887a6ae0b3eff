-- SUMMARY: The parts that the bytes of an image are cut into, in step with the check of each part.
import TreeWasm.Proofs.Validation.Sections
import TreeWasm.Wasm.Validation.Basic

/-!
# Framing of an image

The checker first cuts the bytes into parts and then checks the parts in order. The two can as well
be followed side by side, section by section: `Accepts` says what becomes of the bytes from a
section on, given what the sections before have said, and each lemma puts one more section in front.
-/

namespace TreeWasm.Wasm

open Validation

/-! ## Parts -/

/-- Check the parts that are left, and then the bodies. -/
def checkRest (s : Summary) (f : Framing) : Except Fault Unit := do
  let s ← f.parts.foldlM checkPart s
  match f.fault with
  | some fault => throw fault
  | none => checkPending s

theorem checkFraming_eq (f : Framing) : checkFraming f = checkRest {} f := rfl

theorem checkRest_cons (s : Summary) (part : Part) (f : Framing) :
    checkRest s (f.cons part) = (checkPart s part >>= fun s => checkRest s f) := by
  unfold checkRest Framing.cons
  rw [List.foldlM_cons, bind_assoc]

theorem checkRest_cons_of_ok {s s' : Summary} {part : Part} (h : checkPart s part = .ok s')
    (f : Framing) : checkRest s (f.cons part) = checkRest s' f := by
  rw [checkRest_cons, h]
  rfl

theorem checkRest_complete (s : Summary) : checkRest s .complete = checkPending s := rfl

/-- What the bytes from a section on amount to, behind sections that have said `s` and `p`. -/
def Accepts (s : Summary) (p : Progress) (bytes : List UInt8) (accepted : Prop) : Prop :=
  ∀ fuel offset, bytes.length ≤ fuel →
    (checkRest s (frameSections fuel p ⟨offset, bytes⟩) = .ok () ↔ accepted)

/-- The sections of a module follow its preamble. -/
theorem frame_header_append (bytes : List UInt8) :
    frame (header ++ bytes) = frameSections (header ++ bytes).length {} ⟨8, bytes⟩ := by
  have hpreamble : Reader.preamble ⟨0, header ++ bytes⟩ = .ok (false, ⟨8, bytes⟩) := rfl
  unfold frame
  rw [hpreamble]
  rfl

theorem Accepts.check {bytes : List UInt8} {accepted : Prop} (h : Accepts {} {} bytes accepted) :
    check (header ++ bytes) = .ok () ↔ accepted := by
  rw [Validation.check, checkFraming_eq, frame_header_append]
  exact h _ 8 (by simp)

/-- The end of the bytes. -/
theorem Accepts.nil {s : Summary} {p : Progress} (hcodes : ∀ offset, p.checkCodes offset = .ok ())
    (hdata : ∀ offset, p.checkData offset = .ok ()) : Accepts s p [] (checkPending s = .ok ()) := by
  intro fuel offset _
  have hend : frameEnd p offset = .complete := by
    simp only [frameEnd, hcodes, hdata, Framing.andThen]
  cases fuel <;> simp [frameSections, hend, checkRest_complete]

/-! ## Progress -/

namespace Progress

/-- What is known behind a section, which is left out if it has no entries. -/
def after (p : Progress) (kind : Section) (count : Nat) : Progress :=
  if count = 0 then p
  else
    { p with
      passed := kind.place + 1
      functions? := if kind = .functions then some count else p.functions?
      codes? := if kind = .code then some count else p.codes? }

variable {p : Progress} {kind : Section} {count : Nat}

theorem passed_after_le (h : p.passed ≤ kind.place + 1) :
    (p.after kind count).passed ≤ kind.place + 1 := by
  unfold after
  split
  · exact h
  · exact Nat.le_refl _

theorem functions?_after (h : kind ≠ .functions) :
    (p.after kind count).functions? = p.functions? := by
  by_cases hc : count = 0 <;> simp [after, hc, h]

theorem codes?_after (h : kind ≠ .code) : (p.after kind count).codes? = p.codes? := by
  by_cases hc : count = 0 <;> simp [after, hc, h]

theorem checkData_after (offset : Nat) :
    (p.after kind count).checkData offset = p.checkData offset := by
  unfold after
  split <;> rfl

theorem after_of_pos (h : count ≠ 0) : p.after kind count =
    { p with
      passed := kind.place + 1
      functions? := if kind = .functions then some count else p.functions?
      codes? := if kind = .code then some count else p.codes? } := if_neg h

end Progress

/-! ## Headers -/

namespace Reads

theorem sectionHeader {id : UInt8} {n : Nat} (hid : id.toNat < 128) (hn : n < UInt32.size) :
    Reads Reader.sectionHeader (id :: Leb128.unsigned n) (id.toNat, n) := by
  refine offset_bind fun start => byte_bind ?_
  rw [if_neg (Nat.not_le.2 hid)]
  exact (u32 hn).map (.pure _)

end Reads

/-- The offset of what a section with the given contents contains. -/
def contentsOffset (offset : Nat) (xs : List UInt8) : Nat :=
  offset + (1 + (Leb128.unsigned xs.length).length)

theorem contentsOffset_add (offset : Nat) (id : UInt8) (xs : List UInt8) :
    contentsOffset offset xs + xs.length = offset + (encodeSection id xs).length := by
  simp only [contentsOffset, encodeSection, encodeSized, List.length_cons, List.length_append]
  omega

/-- A section takes bytes, so there is one less to go. -/
theorem exists_fuel_of_encodeSection {id : UInt8} {xs ys : List UInt8} {fuel : Nat}
    (h : (encodeSection id xs ++ ys).length ≤ fuel) :
    ∃ left, fuel = left + 1 ∧ ys.length ≤ left := by
  simp only [encodeSection, List.length_append, List.length_cons] at h
  exact ⟨fuel - 1, by omega, by omega⟩

theorem encodeEntries_eq {entries : List (List UInt8)} (h : entries.length ≠ 0) (id : UInt8) :
    encodeEntries id entries = encodeSection id (encodeVec entries) := by
  unfold encodeEntries
  rw [if_neg]
  simpa using h

/-- The id of a section tells what follows its header. -/
theorem frameSections_encodeSection {id : UInt8} {xs : List UInt8} (hid : id.toNat < 128)
    (hlength : xs.length < UInt32.size) (fuel : Nat) (p : Progress) (offset : Nat)
    (ys : List UInt8) :
    frameSections (fuel + 1) p ⟨offset, encodeSection id xs ++ ys⟩ =
      if id.toNat = 0 then
        frameCustom (frameSections fuel p) xs.length ⟨contentsOffset offset xs, xs ++ ys⟩
      else
        match Section.ofId? id.toNat with
        | some kind => frameSection (frameSections fuel) kind xs.length p
            ⟨contentsOffset offset xs, xs ++ ys⟩
        | none => frameUnknown id.toNat xs.length ⟨contentsOffset offset xs, xs ++ ys⟩ := by
  have hheader := Reads.sectionHeader hid hlength offset (xs ++ ys)
  have hbytes : encodeSection id xs ++ ys = id :: Leb128.unsigned xs.length ++ (xs ++ ys) := by
    simp [encodeSection, encodeSized]
  have hoffset : offset + (id :: Leb128.unsigned xs.length).length = contentsOffset offset xs := by
    rw [contentsOffset, List.length_cons, Nat.add_comm 1]
  rw [hbytes]
  rw [hoffset] at hheader
  simp only [frameSections, hheader, Framing.andThen]
  rfl

/-! ## Sections of entries -/

/-- A section of types, functions or exports is a part of its own. -/
theorem frameSection_entries {kind : Section} {entries : List (List UInt8)} {p : Progress}
    (hkind : kind = .types ∨ kind = .functions ∨ kind = .exports) (hp : p.passed ≤ kind.place)
    (hne : entries.length ≠ 0) (hn : entries.length < UInt32.size)
    (next : Progress → Cursor → Framing) (offset : Nat) (ys : List UInt8) :
    frameSection next kind (encodeVec entries).length p ⟨offset, encodeVec entries ++ ys⟩ =
      (next (p.after kind entries.length) ⟨offset + (encodeVec entries).length, ys⟩).cons
        (.entries kind offset entries.length
          ⟨offset + (Leb128.unsigned entries.length).length, entries.flatten⟩) := by
  have htake := Reader.take_append offset (encodeVec entries) ys
  have hcount : Reader.u32 ⟨offset, encodeVec entries⟩ = .ok (entries.length,
      ⟨offset + (Leb128.unsigned entries.length).length, entries.flatten⟩) :=
    Reads.u32 hn offset entries.flatten
  rw [p.after_of_pos hne]
  rcases hkind with rfl | rfl | rfl <;>
    simp only [frameSection, Progress.enter, if_pos hp, htake, hcount, Framing.andThen] <;> rfl

/-- No entries tell nothing. -/
theorem checkEntries_nil {kind : Section} {start offset : Nat} {s s' : Summary}
    (h : checkEntries kind start 0 ⟨offset, []⟩ s = .ok s') : s' = s := by
  obtain ⟨_, -, h⟩ := bind_eq_ok_iff.1 h
  exact (Except.ok.inj h).symm

/-- Entries that make up a section of types, functions or exports. -/
structure Listed (kind : Section) (id : UInt8) (encode : α → List UInt8) (as : List α) : Prop where
  listed : kind = .types ∨ kind = .functions ∨ kind = .exports
  ofId : Section.ofId? id.toNat = some kind ∧ id.toNat < 128
  ne_nil : ∀ a, encode a ≠ []
  length_lt : (encodeVec (as.map encode)).length < UInt32.size

/-- Behind a section of entries, framing goes on at the bytes that follow it. -/
theorem Listed.frameSections_encodeSection {kind : Section} {id : UInt8} {α : Type}
    {encode : α → List UInt8} {as : List α} (hl : Listed kind id encode as) {p : Progress}
    (hp : p.passed ≤ kind.place) (has : as.length ≠ 0) (fuel offset : Nat) (ys : List UInt8) :
    frameSections (fuel + 1) p ⟨offset, encodeSection id (encodeVec (as.map encode)) ++ ys⟩ =
      (frameSections fuel (p.after kind as.length)
        ⟨offset + (encodeSection id (encodeVec (as.map encode))).length, ys⟩).cons
          (.entries kind (contentsOffset offset (encodeVec (as.map encode))) as.length
            ⟨contentsOffset offset (encodeVec (as.map encode)) +
              (Leb128.unsigned as.length).length, (as.map encode).flatten⟩) := by
  have hn : (as.map encode).length < UInt32.size := by
    rw [List.length_map]
    exact count_lt_of_encodeVec hl.ne_nil hl.length_lt
  have hne : (as.map encode).length ≠ 0 := by rwa [List.length_map]
  obtain ⟨hid, hid'⟩ := hl.ofId
  have hzero : id.toNat ≠ 0 := by
    intro h0
    rw [h0] at hid
    cases hid
  rw [Wasm.frameSections_encodeSection hid' hl.length_lt, if_neg hzero, hid, ← contentsOffset_add,
    ← List.length_map encode]
  exact frameSection_entries hl.listed hp hne hn _ _ _

theorem Listed.frameSections_eq {kind : Section} {id : UInt8} {α : Type} {encode : α → List UInt8}
    {as : List α} (hl : Listed kind id encode as) {p : Progress} (hp : p.passed ≤ kind.place)
    (has : as.length ≠ 0) (fuel offset : Nat) (ys : List UInt8) :
    ∃ start contents, frameSections (fuel + 1) p
        ⟨offset, encodeEntries id (as.map encode) ++ ys⟩ =
      (frameSections fuel (p.after kind as.length)
        ⟨offset + (encodeEntries id (as.map encode)).length, ys⟩).cons
          (.entries kind start as.length ⟨contents, (as.map encode).flatten⟩) := by
  rw [encodeEntries_eq (by rwa [List.length_map])]
  exact ⟨_, _, hl.frameSections_encodeSection hp has fuel offset ys⟩

namespace Accepts

variable {s s' : Summary} {p : Progress} {kind : Section} {id : UInt8} {α : Type}
  {encode : α → List UInt8} {as : List α} {ys : List UInt8} {accepted : Prop}

/-- A section that is there is checked before the bytes behind it. -/
theorem cons (hl : Listed kind id encode as) (has : as.length ≠ 0) (hp : p.passed ≤ kind.place)
    (h : ∀ start offset fuel offset', ys.length ≤ fuel →
      ((checkEntries kind start as.length ⟨offset, (as.map encode).flatten⟩ s >>= fun s =>
        checkRest s (frameSections fuel (p.after kind as.length) ⟨offset', ys⟩)) = .ok () ↔
          accepted)) :
    Accepts s p (encodeEntries id (as.map encode) ++ ys) accepted := by
  intro fuel offset hfuel
  rw [encodeEntries_eq (by rwa [List.length_map])] at hfuel
  obtain ⟨left, rfl, hleft⟩ := exists_fuel_of_encodeSection hfuel
  obtain ⟨start, contents, hframe⟩ := hl.frameSections_eq hp has left offset ys
  rw [hframe, checkRest_cons]
  exact h _ _ left _ hleft

/-- A section that is accepted, or none. -/
theorem entries (hl : Listed kind id encode as) (hp : p.passed ≤ kind.place)
    (hcheck : ∀ start offset,
      checkEntries kind start as.length ⟨offset, (as.map encode).flatten⟩ s = .ok s')
    (hrest : Accepts s' (p.after kind as.length) ys accepted) :
    Accepts s p (encodeEntries id (as.map encode) ++ ys) accepted := by
  by_cases has : as.length = 0
  · obtain rfl := List.eq_nil_of_length_eq_zero has
    obtain rfl := checkEntries_nil (hcheck 0 0)
    exact hrest
  · apply cons hl has hp
    intro start offset fuel offset' hfuel
    rw [hcheck start offset]
    exact hrest fuel offset' hfuel

/-- A section with a fault in it. -/
theorem fault (hl : Listed kind id encode as) (has : as.length ≠ 0) (hp : p.passed ≤ kind.place)
    (hcheck : ∀ start offset, ∃ fault,
      checkEntries kind start as.length ⟨offset, (as.map encode).flatten⟩ s = .error fault) :
    Accepts s p (encodeEntries id (as.map encode) ++ ys) False := by
  apply cons hl has hp
  intro start offset fuel offset' hfuel
  obtain ⟨fault, hfault⟩ := hcheck start offset
  rw [hfault]
  exact ⟨nofun, False.elim⟩

end Accepts

/-! ## Code -/

theorem codeEntry_append {xs : List UInt8} (hlength : xs.length < UInt32.size) {left : Nat}
    (hleft : (encodeSized xs).length ≤ left) (offset : Nat) (ys : List UInt8) :
    Reader.codeEntry left ⟨offset, encodeSized xs ++ ys⟩ =
      .ok ((⟨offset + (Leb128.unsigned xs.length).length, xs⟩, left - (encodeSized xs).length),
        ⟨offset + (encodeSized xs).length, ys⟩) := by
  have hsized : Reader.sized ⟨offset, encodeSized xs ++ ys⟩ =
      .ok (⟨offset + (Leb128.unsigned xs.length).length, xs⟩,
        ⟨offset + (encodeSized xs).length, ys⟩) := by
    unfold Reader.sized encodeSized
    rw [List.append_assoc, Reader.bind_of_ok (Reads.u32 hlength offset _), Reader.take_append,
      List.length_append, Nat.add_assoc]
  have hused : offset + (encodeSized xs).length - offset = (encodeSized xs).length := by omega
  refine (Reader.bind_of_ok rfl).trans ((Reader.bind_of_ok hsized).trans ?_)
  refine (Reader.bind_of_ok rfl).trans ?_
  dsimp only
  rw [hused, if_neg (Nat.not_lt.2 hleft)]
  rfl

theorem codeCount_append {n size : Nat} (hn : n < UInt32.size)
    (hsize : (Leb128.unsigned n).length ≤ size) (offset : Nat) (ys : List UInt8) :
    Reader.codeCount size ⟨offset, Leb128.unsigned n ++ ys⟩ =
      .ok ((n, size - (Leb128.unsigned n).length), ⟨offset + (Leb128.unsigned n).length, ys⟩) := by
  have hused : offset + (Leb128.unsigned n).length - offset = (Leb128.unsigned n).length := by omega
  refine (Reader.bind_of_ok rfl).trans ((Reader.bind_of_ok (Reads.u32 hn offset ys)).trans ?_)
  refine (Reader.bind_of_ok rfl).trans ?_
  dsimp only
  rw [hused, if_neg (Nat.not_lt.2 hsize)]
  rfl

/-- Code entries as cursors of their own, the first of which has its size at the offset. -/
def entriesAt (offset : Nat) : List (List UInt8) → List Cursor
  | [] => []
  | c :: codes =>
    ⟨offset + (Leb128.unsigned c.length).length, c⟩ ::
      entriesAt (offset + (encodeSized c).length) codes

theorem map_rest_entriesAt (offset : Nat) (codes : List (List UInt8)) :
    (entriesAt offset codes).map Cursor.rest = codes := by
  induction codes generalizing offset with
  | nil => rfl
  | cons c codes ih => simp [entriesAt, ih]

/-- The code entries are parts of their own, in order. -/
theorem frameEntries_encodeSized {codes : List (List UInt8)}
    (hlength : ∀ c ∈ codes, c.length < UInt32.size) (next : Cursor → Framing) (offset : Nat)
    (ys : List UInt8) :
    frameEntries next codes.length (codes.map encodeSized).flatten.length
        ⟨offset, (codes.map encodeSized).flatten ++ ys⟩ =
      ((entriesAt offset codes).map Part.codeEntry).foldr Framing.cons
        (next ⟨offset + (codes.map encodeSized).flatten.length, ys⟩) := by
  induction codes generalizing offset with
  | nil => rfl
  | cons c codes ih =>
    have hc := hlength c List.mem_cons_self
    have hflat : ((c :: codes).map encodeSized).flatten =
        encodeSized c ++ (codes.map encodeSized).flatten := by simp
    have hleft : (encodeSized c).length ≤ ((c :: codes).map encodeSized).flatten.length := by
      rw [hflat, List.length_append]
      exact Nat.le_add_right _ _
    have hentry := codeEntry_append hc hleft offset ((codes.map encodeSized).flatten ++ ys)
    have hrest : ((c :: codes).map encodeSized).flatten.length - (encodeSized c).length =
        (codes.map encodeSized).flatten.length := by
      rw [hflat, List.length_append]
      omega
    have hframe := ih (fun c hc => hlength c (List.mem_cons_of_mem _ hc))
      (offset + (encodeSized c).length)
    rw [hrest, ← List.append_assoc, ← hflat] at hentry
    rw [Nat.add_assoc, ← List.length_append, ← hflat] at hframe
    rw [List.length_cons, frameEntries, hentry]
    exact congrArg (Framing.cons _) hframe

/-- The code entries are put aside, the last one first. -/
theorem checkRest_codeEntries (s : Summary) (cursors : List Cursor) (f : Framing) :
    checkRest s ((cursors.map Part.codeEntry).foldr Framing.cons f) =
      checkRest { s with pending := cursors.reverse ++ s.pending } f := by
  induction cursors generalizing s with
  | nil => rfl
  | cons c cursors ih =>
    rw [List.map_cons, List.foldr_cons, checkRest_cons_of_ok rfl, ih, List.reverse_cons,
      List.append_assoc]
    rfl

/-- A code section with code for every function is its entries. -/
theorem frameSection_codes {p : Progress} {codes : List (List UInt8)}
    (hp : p.passed ≤ Section.code.place) (hcodes : codes.length ≠ 0)
    (hfunctions : p.functions? = some codes.length)
    (hlength : (encodeVec (codes.map encodeSized)).length < UInt32.size)
    (next : Progress → Cursor → Framing) (offset : Nat) (ys : List UInt8) :
    frameSection next .code (encodeVec (codes.map encodeSized)).length p
        ⟨offset, encodeVec (codes.map encodeSized) ++ ys⟩ =
      ((entriesAt (offset + (Leb128.unsigned codes.length).length) codes).map
        Part.codeEntry).foldr Framing.cons
        (next (p.after .code codes.length)
          ⟨offset + (encodeVec (codes.map encodeSized)).length, ys⟩) := by
  have hn : codes.length < UInt32.size := count_lt_of_encodeVec encodeSized_ne_nil hlength
  have hentry : ∀ c ∈ codes, c.length < UInt32.size := fun c hc =>
    Nat.lt_of_le_of_lt (length_le_length_encodeSized c) (length_lt_of_encodeVec hlength hc)
  have hvec : encodeVec (codes.map encodeSized) =
      Leb128.unsigned codes.length ++ (codes.map encodeSized).flatten := by
    rw [encodeVec, List.length_map]
  have hsize : (Leb128.unsigned codes.length).length ≤
      (encodeVec (codes.map encodeSized)).length := by
    rw [hvec, List.length_append]
    exact Nat.le_add_right _ _
  have hleft : (encodeVec (codes.map encodeSized)).length -
      (Leb128.unsigned codes.length).length = (codes.map encodeSized).flatten.length := by
    rw [hvec, List.length_append]
    omega
  have hcount := codeCount_append hn hsize offset ((codes.map encodeSized).flatten ++ ys)
  have hframe := frameEntries_encodeSized hentry (next (p.after .code codes.length))
    (offset + (Leb128.unsigned codes.length).length) ys
  rw [hleft, ← List.append_assoc, ← hvec] at hcount
  rw [Nat.add_assoc, ← List.length_append, ← hvec] at hframe
  rw [← hframe, p.after_of_pos hcodes]
  simp only [frameSection, Progress.enter, if_pos hp, hcount, Framing.andThen, Progress.checkCodes,
    hfunctions, ite_true]
  rfl

/-- The code section, or none, where there is code for every function. -/
theorem Accepts.codes {s : Summary} {p : Progress} {codes : List (List UInt8)} {ys : List UInt8}
    {accepted : Prop} (hp : p.passed ≤ Section.code.place)
    (hfunctions : p.functions? = if codes.length = 0 then none else some codes.length)
    (hlength : (encodeVec (codes.map encodeSized)).length < UInt32.size)
    (hrest : ∀ pending : List Cursor, pending.reverse.map Cursor.rest = codes →
      Accepts { s with pending := pending ++ s.pending } (p.after .code codes.length) ys accepted) :
    Accepts s p (encodeEntries 0x0a (codes.map encodeSized) ++ ys) accepted := by
  by_cases hcodes : codes.length = 0
  · obtain rfl := List.eq_nil_of_length_eq_zero hcodes
    exact hrest [] rfl
  intro fuel offset hfuel
  rw [encodeEntries_eq (by rwa [List.length_map])] at hfuel ⊢
  obtain ⟨left, rfl, hleft⟩ := exists_fuel_of_encodeSection hfuel
  rw [if_neg hcodes] at hfunctions
  rw [frameSections_encodeSection (by decide) hlength]
  show checkRest s (frameSection (frameSections left) .code _ p _) = _ ↔ accepted
  rw [frameSection_codes hp hcodes hfunctions hlength, checkRest_codeEntries]
  refine hrest _ ?_ left _ hleft
  rw [List.reverse_reverse, map_rest_entriesAt]

/-! ## Names -/

/-- What a section of names says is passed over. -/
theorem frameSections_encodeFunctionNames {names : List (Nat × String)}
    (hlength : (encodeFunctionNames names).length < UInt32.size) (fuel : Nat) (p : Progress)
    (offset : Nat) (ys : List UInt8) :
    frameSections (fuel + 1) p ⟨offset, encodeSection 0x00 (encodeFunctionNames names) ++ ys⟩ =
      frameSections fuel p
        ⟨offset + (encodeSection 0x00 (encodeFunctionNames names)).length, ys⟩ := by
  have htitle := Reads.name (s := "name") (by decide +kernel)
  have hid : (0x00 : UInt8).toNat < 128 := by decide
  rw [frameSections_encodeSection hid hlength fuel p offset ys, ← contentsOffset_add]
  show frameCustom (frameSections fuel p) _ _ = _
  simp only [frameCustom, Reader.take_append, Framing.andThen]
  unfold encodeFunctionNames
  rw [htitle]

theorem frameSections_encodeNames {entry : Nat × String} {entries : List (Nat × String)}
    (hlength : (encodeFunctionNames (entry :: entries)).length < UInt32.size) (fuel : Nat)
    (p : Progress) (offset : Nat) :
    frameSections (fuel + 1) p ⟨offset, encodeNames (entry :: entries)⟩ =
      frameSections fuel p ⟨offset + (encodeNames (entry :: entries)).length, []⟩ := by
  have h := frameSections_encodeFunctionNames hlength fuel p offset []
  rwa [List.append_nil] at h

/-- Nothing in a section of names is checked. -/
theorem Accepts.names {s : Summary} {p : Progress} {names : List (Nat × String)} {accepted : Prop}
    (hlength : (encodeFunctionNames names).length < UInt32.size) (hrest : Accepts s p [] accepted) :
    Accepts s p (encodeNames names) accepted := by
  cases names with
  | nil => exact hrest
  | cons entry entries =>
    intro fuel offset hfuel
    obtain _ | fuel := fuel
    · exact absurd hfuel (Nat.not_succ_le_zero _)
    rw [frameSections_encodeNames hlength]
    exact hrest fuel _ (Nat.zero_le fuel)

end TreeWasm.Wasm
