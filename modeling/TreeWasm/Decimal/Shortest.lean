-- SUMMARY: The shortest decimal that reads back to a given 64-bit floating-point number.
import TreeWasm.Binary64.Basic

/-!
# Shortest decimals

The real numbers that round to a floating-point number form an interval: it reaches halfway to
the neighbour on either side, and its ends belong to it exactly when the bit pattern is even.
`shortest` picks the decimal with the fewest digits in that interval, and of two such decimals
the one nearer to the number. A tie goes by the rule given.

All comparisons are exact: an end of the interval is a multiple of half the least positive
magnitude, and a decimal is compared with it by cross-multiplication.
-/

namespace TreeWasm

/-- The decimal `digits * 10 ^ exponent`. -/
structure Decimal where
  digits : Nat
  exponent : Int
deriving DecidableEq, Repr, Inhabited

/-- Which of two equally near decimals is taken. -/
inductive Tie where
  | even
  | up
deriving DecidableEq, Repr

namespace Decimal

/-- Compare a decimal with `n / 2 ^ k`. -/
def compareDyadic (d : Decimal) (n k : Nat) : Ordering :=
  compare ((d.digits * Nat.pow 10 d.exponent.toNat) <<< k) (n * Nat.pow 10 (-d.exponent).toNat)

/-- The decimal lies in the interval of the reals that round to the positive magnitude bits `m`. -/
def readsBack (m : Nat) (d : Decimal) : Bool :=
  let below := d.compareDyadic (Binary64.unitsOf (m - 1) + Binary64.unitsOf m)
    (Binary64.gridExponent + 1)
  let above := d.compareDyadic (Binary64.unitsOf m + Binary64.unitsOf (m + 1))
    (Binary64.gridExponent + 1)
  let closed := m % 2 == 0
  (below == .gt || closed && below == .eq) && (above == .lt || closed && above == .eq)

/-- The number of whole steps of `10 ^ exponent` in `n` units of the least positive magnitude. -/
def wholeSteps (n : Nat) (exponent : Int) : Nat :=
  n * Nat.pow 10 (-exponent).toNat / (Nat.pow 10 exponent.toNat <<< Binary64.gridExponent)

/-- Of the neighbours `steps` and `steps + 1` on the grid of `10 ^ exponent`, the one nearer to
the magnitude bits `m`. -/
def nearer (tie : Tie) (m steps : Nat) (exponent : Int) : Decimal :=
  let up : Decimal := ⟨steps + 1, exponent⟩
  match (⟨2 * steps + 1, exponent⟩ : Decimal).compareDyadic (2 * Binary64.unitsOf m)
      Binary64.gridExponent, tie with
  | .gt, _ => ⟨steps, exponent⟩
  | .lt, _ => up
  | .eq, .up => up
  | .eq, .even => if steps % 2 = 0 then ⟨steps, exponent⟩ else up

/-- The best decimal on the grid of `10 ^ exponent`, if one there reads back. A magnitude has at
most two neighbours on a grid. -/
def onGrid (tie : Tie) (m : Nat) (exponent : Int) : Option Decimal :=
  let steps := wholeSteps (Binary64.unitsOf m) exponent
  match readsBack m ⟨steps, exponent⟩, readsBack m ⟨steps + 1, exponent⟩ with
  | true, true => some (nearer tie m steps exponent)
  | true, false => some ⟨steps, exponent⟩
  | false, true => some ⟨steps + 1, exponent⟩
  | false, false => none

/-- An exponent of ten that is above the magnitude bits `m`: the binary exponent times the
logarithm of two, rounded up generously. -/
def coarsestExponent (m : Nat) : Int :=
  (((Binary64.unitsOf m).log2 : Int) - Binary64.gridExponent) * 30103 / 100000 + 2

/-- The decimal that a positive magnitude is exactly. -/
def exact (m : Nat) : Decimal :=
  ⟨Binary64.unitsOf m * Nat.pow 5 Binary64.gridExponent, -Binary64.gridExponent⟩

/-- The shortest decimal that reads back to the positive magnitude bits `m`: the best one on the
coarsest grid that has one. Twenty grids from above the leading digit reach its eighteenth digit. -/
def shortest (tie : Tie) (m : Nat) : Decimal :=
  ((List.range 20).findSome? fun (i : Nat) => onGrid tie m (coarsestExponent m - i)).getD (exact m)

end Decimal

end TreeWasm
