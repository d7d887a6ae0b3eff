-- SUMMARY: Types of values are read back, references to whatever included.
import TreeWasm.Proofs.Binary.Reads
import TreeWasm.Wasm.Reader.Type

/-!
# Types in binaries

Every value type is read from its bytes, and so is every block type. The first byte tells numbers,
vectors and references apart. In references, an index is a number that is not negative, and a code
is a negative one.
-/

namespace TreeWasm.Wasm

namespace Reads

/-! ## Integers -/

/-- A byte that has its high bit clear is a signed integer by itself. -/
theorem s33_byte {b : UInt8} (h : b.toNat < 128) :
    Reads Reader.s33 [b] (Reader.signedGroup b) := by
  unfold Reader.s33 Reader.signedGroups
  refine byte_bind ?_
  rw [if_pos h]
  exact .pure _

/-- An index is a signed integer of 33 bits. -/
theorem s33_index (index : UInt32) :
    Reads Reader.s33 (Leb128.signed index.toNat) (index.toNat : Int) := by
  have hlt := index.toNat_lt
  exact signedGroups _ _ 16 (by decide) 4 (by simp only [groupsBound]; omega)
    (by simp only [groupsBound]; omega)

/-! ## References -/

theorem heapKind (k : HeapKind) (isShared : Bool) :
    Reads Reader.heapKind (HeapType.kind k isShared).encode (.kind k isShared) := by
  refine offset_bind fun start => ?_
  cases isShared with
  | false =>
    have hne : k.code ≠ 0x65 := by cases k <;> decide
    refine byte_bind ?_
    rw [if_neg hne]
    refine (Reads.pure (k.code, false)).map ?_
    simp only [k.ofCode?_code]
    exact .pure _
  | true =>
    refine byte_bind ?_
    rw [if_pos rfl]
    refine ((byte k.code).map_value (·, true)).map ?_
    simp only [k.ofCode?_code]
    exact .pure _

/-- A code is no index. It is read again as what it stands for. -/
theorem heapType_of_code {b : UInt8} {bytes : List UInt8} {h : HeapType} (hb : b.toNat < 128)
    (hneg : Reader.signedGroup b < 0)
    (hread : Reads (do
      if (← Reader.peek) = 0x62 then
        let _ ← Reader.byte
        return HeapType.exact (.ofNat (← Reader.u32))
      else Reader.heapKind) (b :: bytes) h) : Reads Reader.heapType (b :: bytes) h := by
  intro offset rest
  have hs33 := s33_byte hb offset (bytes ++ rest)
  unfold Reader.heapType
  refine (Reader.bind_of_ok rfl).trans ((Reader.bind_of_ok hs33).trans ?_)
  rw [if_neg (Int.not_le.2 hneg)]
  exact (Reader.bind_of_ok rfl).trans (hread offset rest)

theorem heapType (h : HeapType) : Reads Reader.heapType h.encode h := by
  cases h with
  | kind k isShared =>
    have hread := heapKind k isShared
    cases isShared with
    | false =>
      have hcode : k.code.toNat < 128 ∧ Reader.signedGroup k.code < 0 ∧ k.code ≠ 0x62 := by
        cases k <;> decide
      obtain ⟨hlt, hneg, hne⟩ := hcode
      refine heapType_of_code hlt hneg (peek_bind ?_)
      rwa [if_neg hne]
    | true =>
      refine heapType_of_code (by decide) (by decide) (peek_bind ?_)
      rwa [if_neg (by decide)]
  | defined index =>
    refine get_bind fun c _ => (s33_index index).map ?_
    rw [if_pos (Int.natCast_nonneg _), Int.toNat_natCast, UInt32.ofNat_toNat]
    exact .pure _
  | exact index =>
    refine heapType_of_code (by decide) (by decide) (peek_bind ?_)
    rw [if_pos rfl]
    refine byte_bind ((u32 index.toNat_lt).map ?_)
    rw [UInt32.ofNat_toNat]
    exact .pure _

end Reads

/-- A reference type has the code of a kind alone, or spells out what it points to. -/
theorem RefType.encode_cases (t : RefType) :
    (∃ k, t = ⟨true, .of k⟩ ∧ t.encode = [k.code]) ∨
      t.encode = (if t.nullable then 0x63 else 0x64) :: t.heap.encode := by
  unfold RefType.encode
  split
  · exact .inl ⟨.func, rfl, rfl⟩
  · exact .inl ⟨.host, rfl, rfl⟩
  · exact .inr rfl
  · exact .inr rfl

namespace Reads

theorem refType (t : RefType) : Reads Reader.refType t.encode t := by
  rcases t.encode_cases with ⟨k, rfl, hencode⟩ | hencode
  · have hne : k.code ≠ 0x63 ∧ k.code ≠ 0x64 := by cases k <;> decide
    rw [hencode]
    refine peek_bind ?_
    rw [if_neg hne.1, if_neg hne.2]
    exact (heapKind k false).map (.pure _)
  · rw [hencode]
    obtain ⟨nullable, heap⟩ := t
    cases nullable with
    | true =>
      refine peek_bind ?_
      rw [if_pos rfl]
      exact byte_bind ((heapType heap).map (.pure _))
    | false =>
      show Reads Reader.refType (0x64 :: heap.encode) _
      refine peek_bind ?_
      rw [if_neg (by decide), if_pos rfl]
      exact byte_bind ((heapType heap).map (.pure _))

end Reads

/-- The first byte of a reference type is that of no number or vector. -/
theorem RefType.exists_encode_eq (t : RefType) : ∃ b bytes, t.encode = b :: bytes ∧
    ValType.ofCode? b = none ∧ (b = 0x63 ∨ b = 0x64 ∨ b = 0x65 ∨ (HeapKind.ofCode? b).isSome) := by
  rcases t.encode_cases with ⟨k, -, hencode⟩ | hencode
  · refine ⟨_, _, hencode, ?_, .inr (.inr (.inr ?_))⟩
    · cases k <;> decide
    · rw [k.ofCode?_code]
      rfl
  · refine ⟨_, _, hencode, ?_⟩
    cases t.nullable <;> decide

/-- The bytes of a value type are those of a number or a vector, or those of a reference type. -/
theorem ValType.encode_cases (t : ValType) :
    (∃ b, t.encode = [b] ∧ ofCode? b = some t) ∨ ∃ r, t = .ref r ∧ t.encode = r.encode := by
  cases t with
  | i32 | i64 | f32 | f64 | v128 => exact .inl ⟨_, rfl, by decide⟩
  | ref r => exact .inr ⟨r, rfl, rfl⟩

/-- A value type starts with a byte that is a negative number by itself, and with which no empty
block type starts. -/
theorem ValType.exists_encode_eq (t : ValType) : ∃ b bytes, t.encode = b :: bytes ∧
    64 ≤ b.toNat ∧ b.toNat < 128 ∧ b ≠ 0x40 := by
  cases t with
  | i32 | i64 | f32 | f64 | v128 => exact ⟨_, _, rfl, by decide, by decide, by decide⟩
  | ref r =>
    rcases r.encode_cases with ⟨k, -, hencode⟩ | hencode
    · refine ⟨_, _, hencode, ?_⟩
      cases k <;> decide
    · refine ⟨_, _, hencode, ?_⟩
      cases r.nullable <;> decide

theorem ValType.encode_ne_nil (t : ValType) : t.encode ≠ [] := by
  obtain ⟨b, bytes, hencode, -⟩ := t.exists_encode_eq
  rw [hencode]
  exact List.cons_ne_nil b bytes

namespace Reads

theorem valueType (t : ValType) : Reads Reader.valueType t.encode t := by
  refine offset_bind fun start => ?_
  rcases t.encode_cases with ⟨b, hencode, hcode⟩ | ⟨r, rfl, hencode⟩
  · rw [hencode]
    refine peek_bind ?_
    rw [hcode]
    exact byte_bind (.pure t)
  · have hread := refType r
    obtain ⟨b, bytes, hr, hcode, hfirst⟩ := r.exists_encode_eq
    rw [hencode]
    rw [hr] at hread ⊢
    refine peek_bind ?_
    rw [hcode, if_pos hfirst]
    exact hread.map (.pure _)

theorem blockType (result : Option ValType) :
    Reads Reader.blockType (encodeBlockType result) (.result result) := by
  cases result with
  | none => exact peek_bind (byte_bind (.pure _))
  | some t =>
    have hread := valueType t
    obtain ⟨b, bytes, hencode, hlow, hhigh, hne⟩ := t.exists_encode_eq
    rw [encodeBlockType]
    rw [hencode] at hread ⊢
    refine peek_bind ?_
    rw [if_pos ⟨hlow, hhigh⟩, if_neg hne]
    exact hread.map (.pure _)

end Reads

end TreeWasm.Wasm
