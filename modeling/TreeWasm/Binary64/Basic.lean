-- SUMMARY: 64-bit floating-point numbers as bit patterns: fields, classes, and the exact magnitude on the common grid.

/-!
# Binary64

A `Binary64` is the bit pattern of a 64-bit floating-point number: one sign bit, eleven bits of
biased exponent and 52 bits of fraction. Two values are equal when their bits are, so the payload
of a NaN and the sign of a zero are kept.

Every finite magnitude is a whole multiple of the least positive one, which is two to the power
`-1074`. `units` is that multiple. It turns comparisons and roundings of floating-point numbers
into exact arithmetic on natural numbers.
-/

namespace TreeWasm

/-- A 64-bit floating-point number, given by its bits. -/
structure Binary64 where
  bits : UInt64
deriving DecidableEq, Repr, Inhabited

namespace Binary64

/-! ## Fields -/

/-- The value of the sign bit. The bits below it are the magnitude. -/
def signBit : Nat := 0x8000000000000000

/-- The number of magnitudes that share an exponent. -/
def binadeSize : Nat := 0x10000000000000

/-- The bits below the sign, as a number. Adding one gives the next larger magnitude. -/
def magnitude (x : Binary64) : Nat := x.bits.toNat % signBit

def isNegative (x : Binary64) : Bool := signBit ≤ x.bits.toNat

/-- The magnitude bits of the infinities. Larger ones belong to NaNs. -/
def infiniteMagnitude : Nat := 2047 * binadeSize

def isNaN (x : Binary64) : Bool := infiniteMagnitude < x.magnitude

def isInfinite (x : Binary64) : Bool := x.magnitude == infiniteMagnitude

def isFinite (x : Binary64) : Bool := x.magnitude < infiniteMagnitude

/-- The number with the given sign and magnitude bits. -/
def ofMagnitude (negative : Bool) (magnitude : Nat) : Binary64 :=
  ⟨.ofNat (magnitude % signBit + if negative then signBit else 0)⟩

def zero : Binary64 := ofMagnitude false 0

/-- The same magnitude with the sign taken from `negative`. -/
def withSign (x : Binary64) (negative : Bool) : Binary64 := ofMagnitude negative x.magnitude

/-- A number is its sign and its magnitude. -/
theorem ofMagnitude_magnitude (x : Binary64) : ofMagnitude x.isNegative x.magnitude = x := by
  obtain ⟨b⟩ := x
  have hb := b.toNat_lt
  have : (ofMagnitude (isNegative ⟨b⟩) (magnitude ⟨b⟩)).bits.toNat = b.toNat := by
    simp only [ofMagnitude, magnitude, isNegative, UInt64.toNat_ofNat', decide_eq_true_eq]
    unfold signBit
    split <;> omega
  exact congrArg Binary64.mk (UInt64.toNat_inj.mp this)

/-! ## The common grid -/

/-- The exponent of the common grid: every finite magnitude is a multiple of two to the power
minus this. -/
def gridExponent : Nat := 1074

/-- The multiple of the least positive magnitude that the magnitude bits `m` stand for. -/
def unitsOf (m : Nat) : Nat :=
  let biased := m / binadeSize
  let fraction := m % binadeSize
  if biased = 0 then fraction else (binadeSize + fraction) <<< (biased - 1)

/-- The magnitude of a finite number as a multiple of the least positive one. -/
def units (x : Binary64) : Nat := unitsOf x.magnitude

/-! ## Bytes -/

/-- The eight bytes of the bit pattern, least significant first. -/
def bytes (x : Binary64) : List UInt8 :=
  (List.range 8).map fun i => .ofNat (x.bits.toNat >>> (8 * i))

/-- The number whose bytes, least significant first, are `bytes`. -/
def ofBytes (bytes : List UInt8) : Binary64 :=
  ⟨.ofNat (bytes.foldr (fun b n => b.toNat + 256 * n) 0)⟩

theorem length_bytes (x : Binary64) : x.bytes.length = 8 := by simp [bytes]

theorem ofBytes_bytes (x : Binary64) : ofBytes x.bytes = x := by
  obtain ⟨b⟩ := x
  have hb := b.toNat_lt
  refine congrArg Binary64.mk (UInt64.toNat_inj.mp ?_)
  simp only [bytes, List.range, List.range.loop, List.map, List.foldr, UInt8.toNat_ofNat',
    UInt64.toNat_ofNat']
  omega

end Binary64

end TreeWasm
