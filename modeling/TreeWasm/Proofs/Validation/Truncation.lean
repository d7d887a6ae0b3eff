-- SUMMARY: A section that is cut off is a fault, wherever it is cut.
import TreeWasm.Proofs.Lowering.Outcome
import TreeWasm.Proofs.Validation.Framing

/-!
# Sections that are cut off

A number, a header and an entry say of themselves how long they are. What is read from the beginning
of one of them is therefore all of it or a fault (`Reader.u32_of_prefix`), and a section that ends
before its size is up breaks the framing off, whatever it holds (`frameSections_of_cut`).
-/

namespace TreeWasm.Wasm

/-! ## Reading from a beginning -/

theorem Reads.groupsBound_pos {bound : Nat} (h : 0 < bound) (groups : Nat) :
    0 < groupsBound bound groups := by
  induction groups with
  | zero => exact h
  | succ groups ih =>
    unfold groupsBound
    omega

namespace Reader

theorem bind_eq_ok {r : Reader α} {f : α → Reader β} {c : Cursor} {x : β × Cursor}
    (h : (r >>= f) c = .ok x) : ∃ a c', r c = .ok (a, c') ∧ f a c' = .ok x := by
  obtain ⟨⟨a, c'⟩, ha, hf⟩ := bind_eq_ok_iff.1 (show (r c >>= fun p => f p.1 p.2) = .ok x from h)
  exact ⟨a, c', ha, hf⟩

/-- The offset of the cursor grows by the number of bytes that are read. -/
def Advances (r : Reader α) : Prop :=
  ∀ c a c', r c = .ok (a, c') →
    c.offset ≤ c'.offset ∧ c'.offset + c'.rest.length = c.offset + c.rest.length

namespace Advances

variable {r : Reader α} {f : α → Reader β}

protected theorem pure (a : α) : Advances (pure a) := by
  intro c a' c' h
  cases h
  exact ⟨Nat.le_refl _, rfl⟩

theorem fail (cause : Cause) (offset : Nat) : Advances (Reader.fail cause offset : Reader α) :=
  fun _ _ _ h => by cases h

protected theorem bind (h : Advances r) (h' : ∀ a, Advances (f a)) : Advances (r >>= f) := by
  intro c b c'' hb
  obtain ⟨a, c', ha, hf⟩ := bind_eq_ok hb
  have := h c a c' ha
  have := h' a c' b c'' hf
  omega

theorem offset : Advances Reader.offset := by
  intro c a c' h
  cases h
  exact ⟨Nat.le_refl _, rfl⟩

theorem byte : Advances Reader.byte := by
  rintro ⟨o, _ | ⟨b, rest⟩⟩ a c' h
  · cases h
  · cases h
    simp only [List.length_cons]
    omega

theorem take (n : Nat) : Advances (Reader.take n) := by
  intro c a c' h
  unfold Reader.take at h
  dsimp only at h
  split at h
  · cases h
  · next hn =>
    cases h
    simp only [List.length_take, List.length_drop] at hn ⊢
    omega

theorem ite {p : Prop} [Decidable p] {r r' : Reader α} (h : Advances r) (h' : Advances r') :
    Advances (if p then r else r') := by
  split
  · exact h
  · exact h'

theorem unsignedGroups (type : String) (bound groups : Nat) :
    Advances (Reader.unsignedGroups type bound groups) := by
  induction groups with
  | zero =>
    exact offset.bind fun _ => byte.bind fun _ => (fail _ _).ite ((fail _ _).ite (.pure _))
  | succ groups ih => exact byte.bind fun _ => .ite (.pure _) (ih.bind fun _ => .pure _)

theorem u32 : Advances Reader.u32 := unsignedGroups _ _ _

theorem sized : Advances Reader.sized := u32.bind take

end Advances

/-- The first byte of a number tells whether there are more. -/
theorem unsigned_of_prefix {n : Nat} {b : UInt8} {rest behind : List UInt8}
    (h : b :: rest <+: Leb128.unsigned n ++ behind) :
    (n < 128 ∧ b.toNat = n ∧ Leb128.unsigned n = [b]) ∨
      (128 ≤ n ∧ b.toNat = 128 + n % 128 ∧ Leb128.unsigned n = b :: Leb128.unsigned (n / 128) ∧
        rest <+: Leb128.unsigned (n / 128) ++ behind) := by
  rw [Leb128.unsigned] at h ⊢
  by_cases hn : n < 128
  · rw [if_pos hn] at h ⊢
    obtain ⟨rfl, -⟩ := List.cons_prefix_cons.1 h
    refine .inl ⟨hn, ?_, rfl⟩
    rw [UInt8.toNat_ofNat']
    omega
  · rw [if_neg hn] at h ⊢
    obtain ⟨rfl, hrest⟩ := List.cons_prefix_cons.1 h
    refine .inr ⟨Nat.not_lt.1 hn, ?_, rfl, hrest⟩
    rw [UInt8.toNat_ofNat']
    omega

/-- What is read as a number from the beginning of its bytes is that number, and it is all there. -/
theorem unsignedGroups_of_prefix {type : String} {bound : Nat} (hb : 0 < bound) {groups : Nat}
    {n offset v : Nat} {bytes behind : List UInt8} {c : Cursor}
    (hcut : bytes <+: Leb128.unsigned n ++ behind)
    (h : unsignedGroups type bound groups ⟨offset, bytes⟩ = .ok (v, c)) :
    v = n ∧ n < Reads.groupsBound bound groups ∧
      ∃ rest, bytes = Leb128.unsigned n ++ rest ∧
        c = ⟨offset + (Leb128.unsigned n).length, rest⟩ := by
  induction groups generalizing n offset v bytes c with
  | zero =>
    obtain _ | ⟨b, rest⟩ := bytes
    · cases h
    have hread : (if 128 ≤ b.toNat then fail (.integerTooLong type) offset
        else if bound ≤ b.toNat then fail (.integerTooLarge type) offset
        else pure b.toNat : Reader Nat) ⟨offset + 1, rest⟩ = .ok (v, c) := h
    obtain ⟨hn, hbyte, hbytes⟩ | ⟨-, hbyte, -⟩ := unsigned_of_prefix hcut
    · rw [hbyte, if_neg (Nat.not_le.2 hn)] at hread
      split at hread
      · cases hread
      · next hbound =>
        cases hread
        rw [hbytes]
        exact ⟨rfl, Nat.not_le.1 hbound, rest, rfl, rfl⟩
    · rw [hbyte, if_pos (Nat.le_add_right _ _)] at hread
      cases hread
  | succ groups ih =>
    obtain _ | ⟨b, rest⟩ := bytes
    · cases h
    have hread : (if b.toNat < 128 then pure b.toNat
        else do return b.toNat - 128 + 128 * (← unsignedGroups type bound groups) : Reader Nat)
          ⟨offset + 1, rest⟩ = .ok (v, c) := h
    have hpos := Reads.groupsBound_pos hb groups
    unfold Reads.groupsBound
    obtain ⟨hn, hbyte, hbytes⟩ | ⟨-, hbyte, hbytes, hrest⟩ := unsigned_of_prefix hcut
    · rw [hbyte, if_pos hn] at hread
      cases hread
      rw [hbytes]
      exact ⟨rfl, by omega, rest, rfl, rfl⟩
    · rw [hbyte, if_neg (Nat.not_lt.2 (Nat.le_add_right _ _))] at hread
      obtain ⟨v', c', hgroups, hv⟩ := bind_eq_ok hread
      obtain ⟨rfl, hbound, rest', rfl, rfl⟩ := ih hrest hgroups
      cases hv
      rw [hbytes]
      refine ⟨by omega, by omega, rest', rfl, ?_⟩
      simp only [List.length_cons, Cursor.mk.injEq, and_true]
      omega

variable {offset v : Nat} {bytes behind : List UInt8} {c : Cursor}

theorem u32_of_prefix {n : Nat} (hcut : bytes <+: Leb128.unsigned n ++ behind)
    (h : u32 ⟨offset, bytes⟩ = .ok (v, c)) :
    v = n ∧ n < UInt32.size ∧
      ∃ rest, bytes = Leb128.unsigned n ++ rest ∧
        c = ⟨offset + (Leb128.unsigned n).length, rest⟩ :=
  unsignedGroups_of_prefix (by decide) hcut h

/-- What is read as a header from the beginning of a section is its header, and it is all there. -/
theorem sectionHeader_of_prefix {id : UInt8} {xs : List UInt8} {found : Nat × Nat}
    (hcut : bytes <+: encodeSection id xs ++ behind)
    (h : sectionHeader ⟨offset, bytes⟩ = .ok (found, c)) :
    found = (id.toNat, xs.length) ∧ xs.length < UInt32.size ∧
      ∃ rest, bytes = id :: Leb128.unsigned xs.length ++ rest ∧ c.rest = rest := by
  obtain _ | ⟨b, bytes⟩ := bytes
  · cases h
  rw [encodeSection, encodeSized, List.cons_append, List.append_assoc] at hcut
  obtain ⟨rfl, hsize⟩ := List.cons_prefix_cons.1 hcut
  have hread : (if 128 ≤ b.toNat then fail (.malformed .sectionId) offset
      else do return (b.toNat, ← u32) : Reader (Nat × Nat)) ⟨offset + 1, bytes⟩ =
        .ok (found, c) := h
  split at hread
  · cases hread
  · obtain ⟨v, c', hu32, hfound⟩ := bind_eq_ok hread
    obtain ⟨rfl, hlt, rest, rfl, rfl⟩ := u32_of_prefix hsize hu32
    cases hfound
    exact ⟨rfl, hlt, rest, rfl, rfl⟩

end Reader

/-! ## Sections that are cut off -/

theorem Framing.andThen_fault_eq_none {r : Except Fault α} {next : α → Framing}
    (h : (Framing.andThen r next).fault = none) : ∃ a, r = .ok a ∧ (next a).fault = none := by
  cases r with
  | error _ => cases h
  | ok a => exact ⟨a, rfl, h⟩

theorem take_of_length_lt {size : Nat} {c : Cursor} (h : c.rest.length < size) :
    Reader.take size c = .error ⟨.unexpectedEnd, c.offset⟩ := by
  unfold Reader.take
  dsimp only
  rw [if_pos]
  rw [List.length_take]
  omega

theorem fault_of_take {size : Nat} {c : Cursor} (h : c.rest.length < size)
    (next : Cursor × Cursor → Framing) :
    (Framing.andThen (Reader.take size c) next).fault ≠ none := by
  rw [take_of_length_lt h]
  rintro ⟨⟩

theorem codeEntry_lt {left left' : Nat} {c c' body : Cursor}
    (h : Reader.codeEntry left c = .ok ((body, left'), c')) (hcut : c.rest.length < left) :
    c'.rest.length < left' := by
  obtain ⟨_, _, hstart, h⟩ := Reader.bind_eq_ok h
  cases hstart
  obtain ⟨_, c₁, hsized, h⟩ := Reader.bind_eq_ok h
  obtain ⟨_, _, hend, h⟩ := Reader.bind_eq_ok h
  cases hend
  have := Reader.Advances.sized _ _ _ hsized
  dsimp only at h
  split at h
  · cases h
  · cases h
    omega

theorem codeCount_lt {size count left : Nat} {c c' : Cursor}
    (h : Reader.codeCount size c = .ok ((count, left), c')) (hcut : c.rest.length < size) :
    c'.rest.length < left := by
  obtain ⟨_, _, hstart, h⟩ := Reader.bind_eq_ok h
  cases hstart
  obtain ⟨_, c₁, hcount, h⟩ := Reader.bind_eq_ok h
  obtain ⟨_, _, hend, h⟩ := Reader.bind_eq_ok h
  cases hend
  have := Reader.Advances.u32 _ _ _ hcount
  dsimp only at h
  split at h
  · cases h
  · cases h
    omega

theorem frameEntries_of_cut (next : Cursor → Framing) (count : Nat) {left : Nat} {c : Cursor}
    (hcut : c.rest.length < left) : (frameEntries next count left c).fault ≠ none := by
  induction count generalizing left c with
  | zero =>
    cases left with
    | zero => cases hcut
    | succ left => rintro ⟨⟩
  | succ count ih =>
    intro h
    obtain ⟨⟨⟨body, left'⟩, c'⟩, hentry, hrest⟩ := Framing.andThen_fault_eq_none h
    exact ih (codeEntry_lt hentry hcut) hrest

theorem frameSection_of_cut (next : Progress → Cursor → Framing) (kind : Section) {size : Nat}
    (p : Progress) {c : Cursor} (hcut : c.rest.length < size) :
    (frameSection next kind size p c).fault ≠ none := by
  intro h
  obtain ⟨p', -, h⟩ := Framing.andThen_fault_eq_none h
  cases kind with
  | code =>
    obtain ⟨⟨⟨count, left⟩, behind⟩, hcount, h⟩ := Framing.andThen_fault_eq_none h
    obtain ⟨_, -, h⟩ := Framing.andThen_fault_eq_none h
    exact frameEntries_of_cut _ count (codeCount_lt hcount hcut) h
  | _ => exact fault_of_take hcut _ h

theorem frameSections_of_cut {id : UInt8} {xs bytes : List UInt8}
    (hcut : bytes <+: encodeSection id xs) (hnil : bytes ≠ [])
    (hlength : bytes.length < (encodeSection id xs).length) {fuel : Nat}
    (hfuel : bytes.length ≤ fuel) (p : Progress) (offset : Nat) :
    (frameSections fuel p ⟨offset, bytes⟩).fault ≠ none := by
  intro h
  obtain _ | fuel := fuel
  · exact hnil (List.eq_nil_of_length_eq_zero (Nat.le_zero.1 hfuel))
  rw [frameSections, if_neg (by simpa using hnil)] at h
  obtain ⟨⟨⟨id', size⟩, c⟩, hheader, h⟩ := Framing.andThen_fault_eq_none h
  rw [← List.append_nil (encodeSection id xs)] at hcut
  obtain ⟨hfound, -, rest, rfl, hrest⟩ := Reader.sectionHeader_of_prefix hcut hheader
  cases hfound
  have hcut : c.rest.length < xs.length := by
    simp only [encodeSection, encodeSized, List.length_cons, List.length_append] at hlength
    rw [hrest]
    omega
  dsimp only at h
  split at h
  · exact fault_of_take hcut _ h
  · split at h
    · exact frameSection_of_cut _ _ p hcut h
    · exact fault_of_take hcut _ h

end TreeWasm.Wasm
