-- SUMMARY: Readers of what has its number in front: counted sequences, sized contents and texts.
import TreeWasm.Proofs.Binary.Reads

/-!
# Sequences

What the binary format puts behind a number of its own: entries behind their count, and bytes behind
their size. The readers here are those of the format itself. They have no limits but those of the
numbers, which are integers of 32 bits.
-/

namespace TreeWasm.Wasm

/-! ## Readers -/

namespace Reader

/-- A counted sequence. -/
def vec (r : Reader α) : Reader (List α) := do times r (← u32)

/-- A thing with its size in front, which must be as long as that size says. -/
def within (r : Reader α) : Reader α := do
  let c ← sized
  whole r c

def text : Reader String := do
  let start ← offset
  let c ← sized
  match String.fromUTF8? ⟨c.rest.toArray⟩ with
  | some s => return s
  | none => fail (.malformed .text) start

end Reader

/-! ## Texts -/

/-- The bytes of an array are collected from an index on, the ones before it being there. -/
theorem toList_loop (b : ByteArray) (i : Nat) (front : List UInt8) :
    ByteArray.toList.loop b i front = front.reverse ++ b.data.toList.drop i := by
  fun_induction ByteArray.toList.loop b i front with
  | case1 i front h ih =>
    have hi : i < b.data.toList.length := h
    have hbyte : b.get! i = b.data.toList[i] :=
      (getElem!_pos b.data i h).trans (Array.getElem_toList hi).symm
    rw [ih, List.reverse_cons, List.append_assoc, List.drop_eq_getElem_cons hi, hbyte]
    rfl
  | case2 i front h =>
    have hi : b.data.toList.length ≤ i := Nat.le_of_not_lt h
    rw [List.drop_eq_nil_of_le hi, List.append_nil]

/-- The bytes of a text are read as that text. -/
theorem fromUTF8?_toUTF8 (s : String) : String.fromUTF8? ⟨s.toUTF8.toList.toArray⟩ = some s := by
  have hbytes : (⟨s.toUTF8.toList.toArray⟩ : ByteArray) = s.toUTF8 := by
    rw [ByteArray.toList, toList_loop]
    rfl
  have hvalid : s.toUTF8.IsValidUTF8 := s.isValidUTF8
  rw [hbytes, String.fromUTF8?, dif_pos hvalid]
  rfl

namespace Reads

variable {α β : Type} {r : Reader β} {bytes : List UInt8} {b : β}

/-! ## Sequences -/

theorem times {encode : α → List UInt8} {value : α → β} {as : List α}
    (h : ∀ a ∈ as, Reads r (encode a) (value a)) :
    Reads (Reader.times r as.length) (as.map encode).flatten (as.map value) := by
  induction as with
  | nil => exact .pure []
  | cons a as ih =>
    have hfirst := h a List.mem_cons_self
    have hrest := ih fun a ha => h a (List.mem_cons_of_mem _ ha)
    rw [List.map_cons, List.flatten_cons, List.map_cons, List.length_cons, Reader.times]
    exact hfirst.bind (hrest.map (.pure _))

theorem vec {encode : α → List UInt8} {value : α → β} {as : List α}
    (h : ∀ a ∈ as, Reads r (encode a) (value a)) (hlength : as.length < UInt32.size) :
    Reads (Reader.vec r) (encodeVec (as.map encode)) (as.map value) := by
  unfold encodeVec Reader.vec
  rw [List.length_map]
  exact (u32 hlength).bind (times h)

/-! ## Sizes -/

/-- What is read exactly is read to the end of a cursor that holds nothing else. -/
theorem whole (h : Reads r bytes b) (offset : Nat) :
    Reader.whole r ⟨offset, bytes⟩ = .ok b := by
  have hread := h offset []
  rw [List.append_nil] at hread
  unfold Reader.whole
  rw [hread]
  rfl

/-- Bytes behind their number are a cursor of their own. -/
theorem sized_bind {f : Cursor → Reader β} {xs ys : List UInt8} (hlength : xs.length < UInt32.size)
    (h : ∀ offset, Reads (f ⟨offset, xs⟩) ys b) :
    Reads (Reader.sized >>= f) (encodeSized xs ++ ys) b := by
  unfold encodeSized Reader.sized
  rw [List.append_assoc, bind_assoc]
  exact (u32 hlength).bind (take_bind h)

/-- A reader of what is behind its size goes on with nothing. -/
theorem sized_map {f : Cursor → Reader β} {xs : List UInt8} (hlength : xs.length < UInt32.size)
    (h : ∀ offset, Reads (f ⟨offset, xs⟩) [] b) :
    Reads (Reader.sized >>= f) (encodeSized xs) b := by
  have := sized_bind hlength h
  rwa [List.append_nil] at this

theorem liftM_whole (h : Reads r bytes b) (offset : Nat) :
    Reads (liftM (Reader.whole r ⟨offset, bytes⟩) : Reader β) [] b := by
  rw [h.whole offset]
  exact .pure b

theorem within (h : Reads r bytes b) (hlength : bytes.length < UInt32.size) :
    Reads (Reader.within r) (encodeSized bytes) b :=
  sized_map hlength fun offset => h.liftM_whole offset

theorem text {s : String} (hlength : s.toUTF8.toList.length < UInt32.size) :
    Reads Reader.text (encodeName s) s := by
  refine offset_bind fun start => sized_map hlength fun offset => ?_
  simp only [fromUTF8?_toUTF8]
  exact .pure s

end Reads

end TreeWasm.Wasm
