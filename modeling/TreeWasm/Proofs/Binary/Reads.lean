-- SUMMARY: When a reader takes exactly some bytes, and how this composes; variable-length integers.
import TreeWasm.Wasm.Image
import TreeWasm.Wasm.Reader

/-!
# Readers and writers

`Reads r bytes a` says that the reader `r` takes exactly `bytes` from the front of any cursor and
gives back `a`. What is built from readers reads what is built from their bytes in the same order,
so it is enough to say of each writer what reads it.
-/

namespace TreeWasm.Wasm

/-! ## Reads -/

/-- The reader takes exactly the bytes, wherever they stand and whatever follows them. -/
def Reads (r : Reader α) (bytes : List UInt8) (a : α) : Prop :=
  ∀ offset rest, r ⟨offset, bytes ++ rest⟩ = .ok (a, ⟨offset + bytes.length, rest⟩)

namespace Reader

theorem bind_of_ok {r : Reader α} {f : α → Reader β} {c c' : Cursor} {a : α}
    (h : r c = .ok (a, c')) : (r >>= f) c = f a c' := by
  show (r c >>= fun p => f p.1 p.2) = _
  rw [h]
  rfl

theorem bind_of_error {r : Reader α} {f : α → Reader β} {c : Cursor} {fault : Fault}
    (h : r c = .error fault) : (r >>= f) c = .error fault := by
  show (r c >>= fun p => f p.1 p.2) = _
  rw [h]
  rfl

/-- Bytes that are taken as a whole stand where they stood. -/
theorem take_append (offset : Nat) (xs ys : List UInt8) :
    take xs.length ⟨offset, xs ++ ys⟩ = .ok (⟨offset, xs⟩, ⟨offset + xs.length, ys⟩) := by
  simp [take]

end Reader

namespace Reads

variable {r : Reader α} {f : α → Reader β} {xs ys bytes : List UInt8} {a : α} {b : β}

protected theorem pure (a : α) : Reads (pure a) [] a := fun _ _ => rfl

protected theorem bind (h : Reads r xs a) (h' : Reads (f a) ys b) :
    Reads (r >>= f) (xs ++ ys) b := by
  intro offset rest
  rw [List.append_assoc, Reader.bind_of_ok (h offset (ys ++ rest)), h', List.length_append,
    Nat.add_assoc]

/-- What follows a reader may read nothing more. -/
theorem map (h : Reads r bytes a) (h' : Reads (f a) [] b) : Reads (r >>= f) bytes b := by
  have := h.bind h'
  rwa [List.append_nil] at this

/-- An offset is only good for reports. -/
theorem offset_bind {f : Nat → Reader β} (h : ∀ offset, Reads (f offset) bytes b) :
    Reads (Reader.offset >>= f) bytes b :=
  fun offset rest => h offset offset rest

/-- How much there is to read is only known from below. -/
theorem get_bind {f : Cursor → Reader β}
    (h : ∀ c : Cursor, bytes.length ≤ c.rest.length → Reads (f c) bytes b) :
    Reads (get >>= f) bytes b := by
  intro offset rest
  refine h ⟨offset, bytes ++ rest⟩ ?_ offset rest
  rw [List.length_append]
  exact Nat.le_add_right _ _

theorem peek_bind {f : UInt8 → Reader β} {x : UInt8} (h : Reads (f x) (x :: bytes) b) :
    Reads (Reader.peek >>= f) (x :: bytes) b := h

theorem byte (x : UInt8) : Reads Reader.byte [x] x := fun _ _ => rfl

theorem byte_bind {f : UInt8 → Reader β} {x : UInt8} (h : Reads (f x) bytes b) :
    Reads (Reader.byte >>= f) (x :: bytes) b := (byte x).bind h

theorem take_bind {f : Cursor → Reader β} (h : ∀ offset, Reads (f ⟨offset, xs⟩) ys b) :
    Reads (Reader.take xs.length >>= f) (xs ++ ys) b := by
  intro offset rest
  rw [List.append_assoc, Reader.bind_of_ok (Reader.take_append offset xs (ys ++ rest)), h,
    List.length_append, Nat.add_assoc]

/-- What follows bytes that are taken as a whole may read nothing more. -/
theorem take_map {f : Cursor → Reader β} (h : ∀ offset, Reads (f ⟨offset, xs⟩) [] b) :
    Reads (Reader.take xs.length >>= f) xs b := by
  have := take_bind h
  rwa [List.append_nil] at this

theorem map_value (h : Reads r bytes a) (g : α → β) : Reads (g <$> r) bytes (g a) := by
  rw [map_eq_pure_bind]
  exact h.map (.pure _)

/-! ## Integers -/

/-- The numbers that fit into some groups of seven bits, of which the last one is below a bound. -/
def groupsBound (bound : Nat) : Nat → Nat
  | 0 => bound
  | groups + 1 => 128 * groupsBound bound groups

theorem unsignedGroups (type : String) {bound : Nat} (hb : bound ≤ 128) (groups : Nat) {n : Nat}
    (h : n < groupsBound bound groups) :
    Reads (Reader.unsignedGroups type bound groups) (Leb128.unsigned n) n := by
  have hsmall (hn : n < 128) : (UInt8.ofNat n).toNat = n := by
    rw [UInt8.toNat_ofNat']
    omega
  induction groups generalizing n with
  | zero =>
    have hn : n < 128 := Nat.lt_of_lt_of_le h hb
    have hlong : ¬128 ≤ n := by omega
    have hlarge : ¬bound ≤ n := Nat.not_le_of_lt h
    rw [Leb128.unsigned, if_pos hn, Reader.unsignedGroups]
    refine offset_bind fun start => byte_bind ?_
    rw [hsmall hn, if_neg hlong, if_neg hlarge]
    exact .pure n
  | succ groups ih =>
    rw [Leb128.unsigned, Reader.unsignedGroups]
    by_cases hn : n < 128
    · rw [if_pos hn]
      refine byte_bind ?_
      rw [hsmall hn, if_pos hn]
      exact .pure n
    · have hbyte : (UInt8.ofNat (128 + n % 128)).toNat = 128 + n % 128 := by
        rw [UInt8.toNat_ofNat']
        omega
      have hmore : ¬128 + n % 128 < 128 := by omega
      have hvalue : 128 + n % 128 - 128 + 128 * (n / 128) = n := by omega
      have hnext : n / 128 < groupsBound bound groups := by
        unfold groupsBound at h
        omega
      rw [if_neg hn]
      refine byte_bind ?_
      rw [hbyte, if_neg hmore]
      refine (ih hnext fun hn => ?_).map ?_
      · rw [UInt8.toNat_ofNat']
        omega
      · rw [hvalue]
        exact .pure n

/-- Unsigned integers of 32 bits. -/
theorem u32 {n : Nat} (h : n < UInt32.size) : Reads Reader.u32 (Leb128.unsigned n) n :=
  unsignedGroups "var_u32" (by decide) 4 h

theorem signedGroup_ofNat {z : Int} (h : -64 ≤ z) (h' : z < 64) :
    Reader.signedGroup (.ofNat (z % 128).toNat) = z := by
  have hbyte : (UInt8.ofNat (z % 128).toNat).toNat = (z % 128).toNat := by
    rw [UInt8.toNat_ofNat']
    omega
  unfold Reader.signedGroup
  rw [hbyte]
  split <;> omega

theorem signedGroups (tooLong tooLarge : Cause) (bound : Nat) (hb : bound ≤ 64) (groups : Nat)
    {z : Int} (h : -groupsBound bound groups ≤ z) (h' : z < groupsBound bound groups) :
    Reads (Reader.signedGroups tooLong tooLarge bound groups) (Leb128.signed z) z := by
  have hsmall (hz : -64 ≤ z ∧ z < 64) : (UInt8.ofNat (z % 128).toNat).toNat < 128 := by
    rw [UInt8.toNat_ofNat']
    omega
  induction groups generalizing z with
  | zero =>
    unfold groupsBound at h h'
    have hz : -64 ≤ z ∧ z < 64 := by omega
    have hlong : ¬128 ≤ (UInt8.ofNat (z % 128).toNat).toNat := Nat.not_le_of_lt (hsmall hz)
    have hlarge : ¬(z < -(bound : Int) ∨ (bound : Int) ≤ z) := by omega
    rw [Leb128.signed, if_pos hz, Reader.signedGroups]
    refine offset_bind fun start => byte_bind ?_
    rw [if_neg hlong, signedGroup_ofNat hz.1 hz.2, if_neg hlarge]
    exact .pure z
  | succ groups ih =>
    unfold groupsBound at h h'
    rw [Leb128.signed, Reader.signedGroups]
    by_cases hz : -64 ≤ z ∧ z < 64
    · rw [if_pos hz]
      refine byte_bind ?_
      rw [if_pos (hsmall hz), signedGroup_ofNat hz.1 hz.2]
      exact .pure z
    · have hbyte : (UInt8.ofNat (128 + z % 128).toNat).toNat = 128 + (z % 128).toNat := by
        rw [UInt8.toNat_ofNat']
        omega
      have hmore : ¬128 + (z % 128).toNat < 128 := by omega
      have hvalue : ((128 + (z % 128).toNat - 128 : Nat) : Int) + 128 * (z / 128) = z := by omega
      rw [if_neg hz]
      refine byte_bind ?_
      rw [hbyte, if_neg hmore]
      refine (ih (by omega) (by omega) fun hz => ?_).map ?_
      · rw [UInt8.toNat_ofNat']
        omega
      · rw [hvalue]
        exact .pure z

/-- Signed integers of 32 bits. -/
theorem s32 (n : Int32) : Reads Reader.s32 (Leb128.signed n.toInt) n := by
  have hmin := n.le_toInt
  have hmax := n.toInt_lt
  have h : Reads (Reader.signedGroups (.integerTooLong "var_i32") (.integerTooLarge "var_i32") 8 4)
      (Leb128.signed n.toInt) n.toInt :=
    signedGroups _ _ 8 (by decide) 4 (by simpa [groupsBound] using hmin)
      (by simpa [groupsBound] using hmax)
  refine h.map ?_
  rw [Int32.ofInt_toInt]
  exact .pure n

end Reads

end TreeWasm.Wasm
