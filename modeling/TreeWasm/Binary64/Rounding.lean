-- SUMMARY: Rounding a quotient of natural numbers to the nearest 64-bit floating-point number, and the products and quotients built on it.
import TreeWasm.Binary64.Basic

/-!
# Rounding to the nearest floating-point number

`ofQuotient n d` is the floating-point number nearest to `n / d`, a tie going to the even bit
pattern and a value beyond the range to infinity. On it rest the conversion of a natural number
and the product and the quotient of two finite magnitudes: each is the exact result, rounded once.
-/

namespace TreeWasm.Binary64

/-- `n / d` rounded to the nearest natural number, ties to even. -/
def nearestEven (n d : Nat) : Nat :=
  let q := n / d
  let r := n % d
  if 2 * r < d then q
  else if d < 2 * r then q + 1
  else if q % 2 = 0 then q else q + 1

/-- The magnitude bits nearest to `n / d` of the least positive magnitude. Numbers with the same
`shift` lie `2 ^ shift` units apart; a significand that rounds up to `2 ^ 53` carries into the
exponent by itself. -/
def magnitudeOfUnits (n d : Nat) : Nat :=
  let shift := (n / d).log2 - 52
  min (shift * binadeSize + nearestEven n (d <<< shift)) infiniteMagnitude

/-- The nearest number to `n / d`. -/
def ofQuotient (n d : Nat) : Binary64 :=
  ofMagnitude false (magnitudeOfUnits (n <<< gridExponent) d)

/-- The nearest number to a natural number. -/
def ofNat (n : Nat) : Binary64 := ofQuotient n 1

/-- The nearest number to the product of two finite magnitudes. -/
def mul (x y : Binary64) : Binary64 :=
  ofMagnitude false (magnitudeOfUnits (x.units * y.units) (1 <<< gridExponent))

/-- The nearest number to the quotient of two finite magnitudes. -/
def div (x y : Binary64) : Binary64 := ofQuotient x.units y.units

/-- The nearest number to a power of ten. -/
def tenTo (n : Nat) : Binary64 := ofNat (Nat.pow 10 n)

end TreeWasm.Binary64
