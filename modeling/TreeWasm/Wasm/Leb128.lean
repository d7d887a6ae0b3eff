-- SUMMARY: Variable-length integers: groups of seven bits, least significant first, in as few bytes as possible.

/-!
# Variable-length integers

A number is cut into groups of seven bits, the least significant first. All bytes but the last
have their high bit set. The bytes of a signed number stop as soon as the sign of what is left is
that of the last group.
-/

namespace TreeWasm.Wasm.Leb128

/-- The bytes of a natural number. -/
def unsigned (n : Nat) : List UInt8 :=
  if n < 128 then [.ofNat n] else .ofNat (128 + n % 128) :: unsigned (n / 128)
termination_by n

/-- The bytes of a signed number. -/
def signed (z : Int) : List UInt8 :=
  if -64 ≤ z ∧ z < 64 then [.ofNat (z % 128).toNat]
  else .ofNat (128 + z % 128).toNat :: signed (z / 128)
termination_by z.natAbs
decreasing_by omega

end TreeWasm.Wasm.Leb128
