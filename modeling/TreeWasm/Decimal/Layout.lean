-- SUMMARY: How a floating-point number is laid out as text: positional or with an exponent, as a record of choices says.
import TreeWasm.Decimal.Shortest

/-!
# Layout of floating-point numbers

Which digits stand for a number is settled in `TreeWasm.Decimal.Shortest`. A `Layout` record
holds what a text format decides on top of them: between which exponents of the leading digit the
number is written positionally, and how an exponent is written. Positional numbers always have a
point.
-/

namespace TreeWasm

/-- The layout decisions of a text format for floating-point numbers. -/
structure Layout where
  /-- The least exponent of the leading digit that is written positionally. -/
  plainFrom : Int
  /-- The greatest exponent of the leading digit that is written positionally. -/
  plainUpTo : Int
  /-- Whether a positive exponent carries a sign. -/
  plusOnExponent : Bool
  /-- Which of two equally near digit sequences is written. -/
  tie : Tie
deriving DecidableEq, Repr

namespace Layout

def zeros (n : Nat) : String := String.ofList (List.replicate n '0')

/-- Write a decimal with a point and no exponent. -/
def plain (digits : List Char) (exponent : Int) : String :=
  let point := (digits.length : Int) + exponent
  if 0 ≤ exponent then String.ofList digits ++ zeros exponent.toNat ++ ".0"
  else if 0 < point then
    String.ofList (digits.take point.toNat) ++ "." ++ String.ofList (digits.drop point.toNat)
  else "0." ++ zeros (-point).toNat ++ String.ofList digits

/-- Write a decimal as a leading digit, the other digits behind a point, and an exponent. -/
def scientific (layout : Layout) (digits : List Char) (leading : Int) : String :=
  let mantissa := match digits with
    | first :: second :: rest => String.ofList (first :: '.' :: second :: rest)
    | digits => String.ofList digits
  mantissa ++ "e" ++ (if layout.plusOnExponent && 0 < leading then "+" else "") ++ toString leading

/-- The text of a decimal that is not zero. -/
def decimal (layout : Layout) (d : Decimal) : String :=
  let digits := Nat.toDigits 10 d.digits
  let leading := d.exponent + digits.length - 1
  if layout.plainFrom ≤ leading ∧ leading ≤ layout.plainUpTo then plain digits d.exponent
  else layout.scientific digits leading

/-- The text of a floating-point number. A NaN shows neither sign nor payload. -/
def float (layout : Layout) (x : Binary64) : String :=
  if x.isNaN then "NaN"
  else (if x.isNegative then "-" else "") ++
    (if x.isInfinite then "inf"
     else if x.magnitude = 0 then "0.0"
     else layout.decimal (.shortest layout.tie x.magnitude))

end Layout

end TreeWasm
