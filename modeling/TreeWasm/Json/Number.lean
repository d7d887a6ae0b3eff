-- SUMMARY: Numerals of JSON texts and the numbers they stand for.
import TreeWasm.Binary64.Rounding
import TreeWasm.Json.Basic

/-!
# Numerals

A numeral with neither point nor exponent is an integer if it fits 64 bits, signed or not; minus
zero and everything else is a floating-point number.

The value of the latter is fixed as follows. The digits are taken into a significand as long as it
fits 64 bits: digits of the whole part that do not fit still count for the exponent, digits of the
fraction that do not fit are ignored. The significand is rounded to a floating-point number and
then multiplied by a power of ten, or divided by one, which rounds again. A power beyond the range
is divided by in steps. So the result is not always the number nearest to the numeral.
-/

namespace TreeWasm.Json

/-- A numeral cut into its parts. Without a point, `fraction` is empty. -/
structure Numeral where
  negative : Bool
  whole : List Char
  fraction : List Char
  exponent : Option Int
deriving DecidableEq, Repr, Inhabited

/-! ## Scanning -/

namespace Numeral

/-- The digits before the point. A zero stands alone. -/
def scanWhole : List Char → Option (List Char × List Char)
  | '0' :: rest =>
    match rest with
    | c :: _ => if c.isDigit then none else some (['0'], rest)
    | [] => some (['0'], [])
  | c :: rest =>
    if c.isDigit then some (c :: rest.takeWhile Char.isDigit, rest.dropWhile Char.isDigit) else none
  | [] => none

/-- The digits after a point, if there is one. -/
def scanFraction : List Char → Option (List Char × List Char)
  | '.' :: rest =>
    let digits := rest.takeWhile Char.isDigit
    if digits.isEmpty then none else some (digits, rest.dropWhile Char.isDigit)
  | rest => some ([], rest)

def digitValue (c : Char) : Nat := c.toNat - '0'.toNat

def natValue (digits : List Char) : Nat := digits.foldl (fun n c => 10 * n + digitValue c) 0

/-- The digits of an exponent behind its sign. -/
def scanExponentDigits (negative : Bool) (s : List Char) : Option (Option Int × List Char) :=
  let digits := s.takeWhile Char.isDigit
  if digits.isEmpty then none
  else
    let n : Int := natValue digits
    some (some (if negative then -n else n), s.dropWhile Char.isDigit)

/-- The exponent, if there is one. -/
def scanExponent : List Char → Option (Option Int × List Char)
  | [] => some (none, [])
  | c :: rest =>
    if c = 'e' ∨ c = 'E' then
      match rest with
      | '-' :: rest => scanExponentDigits true rest
      | '+' :: rest => scanExponentDigits false rest
      | rest => scanExponentDigits false rest
    else some (none, c :: rest)

/-- The numeral at the front of a text behind its sign. -/
def scanUnsigned (negative : Bool) (s : List Char) : Option (Numeral × List Char) := do
  let (whole, s) ← scanWhole s
  let (fraction, s) ← scanFraction s
  let (exponent, s) ← scanExponent s
  return (⟨negative, whole, fraction, exponent⟩, s)

/-- The numeral at the front of a text. -/
def scan : List Char → Option (Numeral × List Char)
  | '-' :: rest => scanUnsigned true rest
  | s => scanUnsigned false s

theorem length_scanWhole {s t digits : List Char} (h : scanWhole s = some (digits, t)) :
    t.length < s.length := by
  unfold scanWhole at h
  split at h
  · split at h
    · split at h
      · simp at h
      · obtain ⟨_, rfl⟩ : _ ∧ _ = t := by simpa using h
        simp
    · simp only [Option.some.injEq, Prod.mk.injEq] at h
      simp [← h.2]
  · rename_i c rest _
    split at h
    · simp only [Option.some.injEq, Prod.mk.injEq] at h
      obtain ⟨_, rfl⟩ := h
      have := (List.dropWhile_sublist Char.isDigit (l := rest)).length_le
      simp only [List.length_cons]
      omega
    · simp at h
  · simp at h

theorem length_scanFraction {s t digits : List Char} (h : scanFraction s = some (digits, t)) :
    t.length ≤ s.length := by
  unfold scanFraction at h
  split at h
  · rename_i rest
    simp only at h
    split at h
    · simp at h
    · simp only [Option.some.injEq, Prod.mk.injEq] at h
      obtain ⟨_, rfl⟩ := h
      have := (List.dropWhile_sublist Char.isDigit (l := rest)).length_le
      simp only [List.length_cons]
      omega
  · obtain ⟨_, rfl⟩ : _ ∧ _ = t := by simpa using h
    exact Nat.le_refl _

theorem length_scanExponentDigits {negative : Bool} {s t : List Char} {e : Option Int}
    (h : scanExponentDigits negative s = some (e, t)) : t.length ≤ s.length := by
  unfold scanExponentDigits at h
  simp only at h
  split at h
  · simp at h
  · simp only [Option.some.injEq, Prod.mk.injEq] at h
    obtain ⟨_, rfl⟩ := h
    exact (List.dropWhile_sublist Char.isDigit).length_le

theorem length_scanExponent {s t : List Char} {e : Option Int}
    (h : scanExponent s = some (e, t)) : t.length ≤ s.length := by
  unfold scanExponent at h
  split at h
  · simp_all
  · split at h
    · split at h <;> have := length_scanExponentDigits h <;> simp_all <;> omega
    · simp_all

theorem length_scanUnsigned {negative : Bool} {s t : List Char} {n : Numeral}
    (h : scanUnsigned negative s = some (n, t)) : t.length < s.length := by
  simp only [scanUnsigned, Option.bind_eq_bind, Option.bind_eq_some_iff, Prod.exists] at h
  obtain ⟨_, s₁, h₁, _, s₂, h₂, _, s₃, h₃, h₄⟩ := h
  obtain ⟨_, rfl⟩ : _ ∧ s₃ = t := by simpa using h₄
  have := length_scanWhole h₁
  have := length_scanFraction h₂
  have := length_scanExponent h₃
  omega

/-- A numeral takes something off the text. -/
theorem length_scan {s t : List Char} {n : Numeral} (h : scan s = some (n, t)) :
    t.length < s.length := by
  unfold scan at h
  split at h
  · have := length_scanUnsigned h
    simp only [List.length_cons]
    omega
  · exact length_scanUnsigned h

end Numeral

/-! ## Values -/

/-- Take digits into a significand while it fits 64 bits. Gives back the digits left. -/
def absorb (significand : Nat) : List Char → Nat × List Char
  | [] => (significand, [])
  | c :: cs =>
    let next := 10 * significand + Numeral.digitValue c
    if next < UInt64.size then absorb next cs else (significand, c :: cs)

/-- The greatest power of ten that scaling multiplies or divides by at once. -/
def maxPower : Nat := 308

/-- Divide by a power of ten, in steps where it is beyond the range. -/
def divideByPower (x : Binary64) (n : Nat) : Binary64 :=
  if n ≤ maxPower then x.div (.tenTo n)
  else if x.magnitude = 0 then x
  else divideByPower (x.div (.tenTo maxPower)) (n - maxPower)
termination_by n
decreasing_by simp only [maxPower] at *; omega

/-- Multiply by a power of ten. There is no result beyond the range. -/
def multiplyByPower (x : Binary64) (n : Nat) : Option Binary64 :=
  if n ≤ maxPower then
    let y := x.mul (.tenTo n)
    if y.isInfinite then none else some y
  else if x.magnitude = 0 then some x
  else none

/-- The magnitude of a significand times a power of ten. -/
def scaled (significand : Nat) (exponent : Int) : Option Binary64 :=
  if 0 ≤ exponent then multiplyByPower (.ofNat significand) exponent.toNat
  else some (divideByPower (.ofNat significand) (-exponent).toNat)

/-- The greatest written exponent that is taken at its value. -/
def maxExponent : Int := 2147483647

namespace Numeral

/-- The value of a numeral as a floating-point number. A written exponent beyond all bounds gives
zero, or nothing where it is positive and the significand is not zero. -/
def floatValue (n : Numeral) : Option Binary64 :=
  let (significand, wholeLeft) := absorb 0 n.whole
  let (significand, fractionLeft) := absorb significand n.fraction
  let shift : Int := wholeLeft.length - (n.fraction.length - fractionLeft.length : Int)
  let magnitude :=
    match n.exponent with
    | none => scaled significand shift
    | some e =>
      if maxExponent < e then if significand = 0 then some .zero else none
      else if e < -maxExponent then some .zero
      else scaled significand (max (-maxExponent - 1) (min maxExponent (shift + e)))
  magnitude.map (·.withSign n.negative)

/-- The number that a numeral stands for. -/
def value (n : Numeral) : Number :=
  let float := match n.floatValue with
    | some x => .float x
    | none => .outOfRange
  if n.fraction.isEmpty && n.exponent.isNone then
    let whole := natValue n.whole
    if n.negative then
      if 0 < whole ∧ 2 * whole ≤ UInt64.size then .integer (-whole) else float
    else if whole < UInt64.size then .integer whole else float
  else float

end Numeral

end TreeWasm.Json
