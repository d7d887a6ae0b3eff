-- SUMMARY: The shortest decimal for a magnitude reads back to it and to no other magnitude.
import TreeWasm.Decimal.Shortest

/-!
# Shortest decimals read back

The magnitudes grow with their bits (`Binary64.unitsOf_strictMono`), so the intervals of the reals
that round to them follow one upon the other. Two neighbours share one end, which belongs to at most
one of them, since only one of them is even. So a decimal reads back to one magnitude at most
(`Decimal.readsBack_unique`), and the shortest decimal for a magnitude does read back to it
(`Decimal.readsBack_shortest`).
-/

namespace TreeWasm

namespace Binary64

theorem shiftLeft_lt {a b : Nat} (h : a < b) (s : Nat) : a <<< s < b <<< s := by
  rw [Nat.shiftLeft_eq, Nat.shiftLeft_eq]
  exact Nat.mul_lt_mul_of_pos_right h (Nat.two_pow_pos s)

/-- The next magnitude is larger, in the same binade and at the start of the next. -/
theorem unitsOf_lt_succ (m : Nat) : unitsOf m < unitsOf (m + 1) := by
  have hsize : 0 < binadeSize := by decide
  have hfraction := Nat.mod_lt m hsize
  have hsplit := Nat.div_add_mod m binadeSize
  generalize hb : m / binadeSize = b at hsplit
  generalize hf : m % binadeSize = f at hsplit hfraction
  unfold unitsOf
  rw [hb, hf]
  by_cases hlast : f + 1 < binadeSize
  · have hdiv : (m + 1) / binadeSize = b := by
      rw [← hsplit, Nat.add_assoc, Nat.mul_add_div hsize, Nat.div_eq_of_lt hlast, Nat.add_zero]
    have hmod : (m + 1) % binadeSize = f + 1 := by
      rw [← hsplit, Nat.add_assoc, Nat.mul_add_mod, Nat.mod_eq_of_lt hlast]
    dsimp only
    rw [hdiv, hmod]
    split
    · exact Nat.lt_succ_self f
    · exact shiftLeft_lt (Nat.lt_succ_self _) _
  · have hfull : f + 1 = binadeSize := by omega
    have hnext : m + 1 = binadeSize * (b + 1) := by
      rw [← hsplit, Nat.add_assoc, hfull, Nat.mul_succ]
    have hdiv : (m + 1) / binadeSize = b + 1 := by rw [hnext, Nat.mul_div_cancel_left _ hsize]
    have hmod : (m + 1) % binadeSize = 0 := by rw [hnext, Nat.mul_mod_right]
    dsimp only
    rw [hdiv, hmod, if_neg (Nat.succ_ne_zero b), Nat.add_sub_cancel, Nat.add_zero]
    split
    · next hzero =>
      rw [hzero]
      exact hfraction
    · next hpos =>
      obtain ⟨s, rfl⟩ := Nat.exists_eq_succ_of_ne_zero hpos
      rw [Nat.succ_sub_one, Nat.shiftLeft_succ_inside]
      exact shiftLeft_lt (by omega) s

theorem unitsOf_strictMono {m n : Nat} (h : m < n) : unitsOf m < unitsOf n := by
  induction n with
  | zero => exact absurd h (Nat.not_lt_zero m)
  | succ n ih =>
    rcases Nat.lt_succ_iff_lt_or_eq.1 h with h | rfl
    · exact Nat.lt_trans (ih h) (unitsOf_lt_succ n)
    · exact unitsOf_lt_succ m

end Binary64

namespace Decimal

/-! ## Comparisons -/

/-- What a comparison with `n / 2 ^ k` multiplies the decimal with. -/
def scale (d : Decimal) : Nat := Nat.pow 10 (-d.exponent).toNat

/-- The decimal as a multiple of `1 / 2 ^ k`, up to its scale. -/
def scaledUnits (d : Decimal) (k : Nat) : Nat := (d.digits * Nat.pow 10 d.exponent.toNat) <<< k

theorem compareDyadic_eq (d : Decimal) (n k : Nat) :
    d.compareDyadic n k = compare (d.scaledUnits k) (n * d.scale) := rfl

theorem scale_pos (d : Decimal) : 0 < d.scale := Nat.pow_pos (by decide)

/-- The same number, written with `k` more zeros. -/
def shift (d : Decimal) (k : Nat) : Decimal := ⟨d.digits * Nat.pow 10 k, d.exponent - k⟩

theorem shift_zero (d : Decimal) : d.shift 0 = d := by
  simp [shift, Nat.pow_eq]

theorem compare_mul_right {c : Nat} (hc : 0 < c) (a b : Nat) :
    compare (a * c) (b * c) = compare a b := by
  simp only [Nat.compare_eq_ite_lt, Nat.mul_lt_mul_right hc]

theorem ten_succ (a : Nat) : Nat.pow 10 (a + 1) = Nat.pow 10 a * 10 := rfl

/-- One more zero makes no difference. -/
theorem compareDyadic_shift_one (d : Decimal) (n k : Nat) :
    (d.shift 1).compareDyadic n k = d.compareDyadic n k := by
  rw [compareDyadic_eq, compareDyadic_eq]
  by_cases he : d.exponent ≤ 0
  · have hpositive : (d.exponent - (1 : Nat)).toNat = d.exponent.toNat := by omega
    have hnegative : (-(d.exponent - (1 : Nat))).toNat = (-d.exponent).toNat + 1 := by omega
    have hunits : (d.shift 1).scaledUnits k = d.scaledUnits k * 10 := by
      unfold scaledUnits shift
      dsimp only
      rw [hpositive, Nat.shiftLeft_eq, Nat.shiftLeft_eq, ten_succ]
      simp only [Nat.pow_eq, Nat.pow_zero, Nat.one_mul]
      ac_rfl
    have hscale : (d.shift 1).scale = d.scale * 10 := by
      unfold scale shift
      dsimp only
      rw [hnegative, ten_succ]
    rw [hunits, hscale, ← Nat.mul_assoc, compare_mul_right (by decide)]
  · have hpositive : d.exponent.toNat = (d.exponent - (1 : Nat)).toNat + 1 := by omega
    have hnegative : (-(d.exponent - (1 : Nat))).toNat = (-d.exponent).toNat := by omega
    have hunits : (d.shift 1).scaledUnits k = d.scaledUnits k := by
      unfold scaledUnits shift
      dsimp only
      rw [hpositive, ten_succ, ten_succ]
      simp only [Nat.pow_eq, Nat.pow_zero, Nat.one_mul]
      ac_rfl
    have hscale : (d.shift 1).scale = d.scale := by
      unfold scale shift
      dsimp only
      rw [hnegative]
    rw [hunits, hscale]

theorem compareDyadic_shift (d : Decimal) (zeros n k : Nat) :
    (d.shift zeros).compareDyadic n k = d.compareDyadic n k := by
  induction zeros with
  | zero => rw [shift_zero]
  | succ zeros ih =>
    have hstep : d.shift (zeros + 1) = (d.shift zeros).shift 1 := by
      unfold shift
      dsimp only
      rw [ten_succ, ten_succ, Nat.mul_assoc]
      simp only [Nat.pow_eq, Nat.pow_zero, Nat.one_mul]
      congr 1
      omega
    rw [hstep, compareDyadic_shift_one, ih]

/-! ## Reading back -/

theorem readsBack_shift (m : Nat) (d : Decimal) (zeros : Nat) :
    readsBack m (d.shift zeros) = readsBack m d := by
  unfold readsBack
  rw [compareDyadic_shift, compareDyadic_shift]

/-- Twice the lower and the upper end of the interval of a magnitude. -/
def lowerEnd (m : Nat) : Nat := Binary64.unitsOf (m - 1) + Binary64.unitsOf m

def upperEnd (m : Nat) : Nat := Binary64.unitsOf m + Binary64.unitsOf (m + 1)

theorem readsBack_iff {m : Nat} {d : Decimal} : readsBack m d = true ↔
    (lowerEnd m * d.scale < d.scaledUnits (Binary64.gridExponent + 1) ∨
      m % 2 = 0 ∧ d.scaledUnits (Binary64.gridExponent + 1) = lowerEnd m * d.scale) ∧
    (d.scaledUnits (Binary64.gridExponent + 1) < upperEnd m * d.scale ∨
      m % 2 = 0 ∧ d.scaledUnits (Binary64.gridExponent + 1) = upperEnd m * d.scale) := by
  unfold readsBack lowerEnd upperEnd
  simp [compareDyadic_eq, Nat.compare_eq_lt, Nat.compare_eq_gt]

/-- The interval of a greater magnitude begins where that of the next one does, or behind it. -/
theorem upperEnd_le_lowerEnd {m n : Nat} (h : m < n) :
    upperEnd m ≤ lowerEnd n ∧ (upperEnd m = lowerEnd n → n = m + 1) := by
  obtain ⟨k, rfl⟩ := Nat.exists_eq_add_of_lt h
  unfold upperEnd lowerEnd
  cases k with
  | zero => exact ⟨Nat.le_refl _, fun _ => rfl⟩
  | succ k =>
    have hlower := Binary64.unitsOf_strictMono (show m < m + (k + 1) + 1 - 1 by omega)
    have hupper := Binary64.unitsOf_strictMono (show m + 1 < m + (k + 1) + 1 by omega)
    omega

theorem not_readsBack_of_lt {m n : Nat} (h : m < n) {d : Decimal} (hm : readsBack m d = true) :
    readsBack n d = false := by
  refine Bool.eq_false_iff.2 fun hn => ?_
  obtain ⟨hle, hnext⟩ := upperEnd_le_lowerEnd h
  obtain ⟨-, habove⟩ := readsBack_iff.1 hm
  obtain ⟨hbelow, -⟩ := readsBack_iff.1 hn
  have hends : upperEnd m * d.scale ≤ lowerEnd n * d.scale := Nat.mul_le_mul_right _ hle
  rcases habove with habove | ⟨hm, habove⟩ <;> rcases hbelow with hbelow | ⟨hn, hbelow⟩
  · omega
  · omega
  · omega
  · have hshared : upperEnd m = lowerEnd n :=
      Nat.eq_of_mul_eq_mul_right d.scale_pos (habove.symm.trans hbelow)
    have hn := hnext hshared
    omega

/-- A decimal reads back to one magnitude at most. -/
theorem readsBack_unique {m n : Nat} {d : Decimal} (hm : readsBack m d = true)
    (hn : readsBack n d = true) : m = n := by
  rcases Nat.lt_trichotomy m n with h | h | h
  · exact nomatch hn.symm.trans (not_readsBack_of_lt h hm)
  · exact h
  · exact nomatch hm.symm.trans (not_readsBack_of_lt h hn)

/-- Nothing that reads back to a positive magnitude is zero. -/
theorem digits_pos_of_readsBack {m : Nat} (hm : 0 < m) {d : Decimal}
    (h : readsBack m d = true) : 0 < d.digits := by
  refine Nat.pos_of_ne_zero fun hzero => ?_
  obtain ⟨hbelow, -⟩ := readsBack_iff.1 h
  have hunits : d.scaledUnits (Binary64.gridExponent + 1) = 0 := by
    unfold scaledUnits
    rw [hzero, Nat.zero_mul, Nat.zero_shiftLeft]
  have hpos : 0 < lowerEnd m := by
    have := Binary64.unitsOf_strictMono hm
    unfold lowerEnd
    omega
  have hend : 0 < lowerEnd m * d.scale := Nat.mul_pos hpos d.scale_pos
  omega

/-! ## Shortest decimals -/

/-- A magnitude is halfway between twice its neighbours. -/
theorem scaledUnits_exact (m : Nat) : (exact m).scaledUnits (Binary64.gridExponent + 1) =
    2 * Binary64.unitsOf m * (exact m).scale := by
  unfold scaledUnits scale exact
  generalize Binary64.gridExponent = grid
  have hpositive : (-(grid : Int)).toNat = 0 := by omega
  have hnegative : (-(-(grid : Int))).toNat = grid := by omega
  have hten : Nat.pow 10 grid = Nat.pow 5 grid * Nat.pow 2 grid := Nat.mul_pow 5 2 grid
  dsimp only
  rw [hpositive, hnegative, hten, Nat.shiftLeft_succ, Nat.shiftLeft_eq]
  simp only [Nat.pow_eq, Nat.pow_zero, Nat.mul_one]
  ac_rfl

/-- A magnitude lies in the interval of its own. -/
theorem readsBack_exact {m : Nat} (hm : 0 < m) : readsBack m (exact m) = true := by
  have hlower := Binary64.unitsOf_strictMono (show m - 1 < m by omega)
  have hupper := Binary64.unitsOf_lt_succ m
  rw [readsBack_iff, scaledUnits_exact]
  refine ⟨.inl ?_, .inl ?_⟩
  · refine Nat.mul_lt_mul_of_pos_right ?_ (exact m).scale_pos
    unfold lowerEnd
    omega
  · refine Nat.mul_lt_mul_of_pos_right ?_ (exact m).scale_pos
    unfold upperEnd
    omega

theorem nearer_eq (tie : Tie) (m steps : Nat) (exponent : Int) :
    nearer tie m steps exponent = ⟨steps, exponent⟩ ∨
      nearer tie m steps exponent = ⟨steps + 1, exponent⟩ := by
  unfold nearer
  dsimp only
  split
  · exact .inl rfl
  · exact .inr rfl
  · exact .inr rfl
  · split
    · exact .inl rfl
    · exact .inr rfl

theorem readsBack_onGrid {tie : Tie} {m : Nat} {exponent : Int} {d : Decimal}
    (h : onGrid tie m exponent = some d) : readsBack m d = true := by
  unfold onGrid at h
  dsimp only at h
  split at h
  · next hlower hupper =>
    cases h
    rcases nearer_eq tie m (wholeSteps (Binary64.unitsOf m) exponent) exponent with heq | heq
    · rw [heq, hlower]
    · rw [heq, hupper]
  · next hlower _ =>
    cases h
    exact hlower
  · next _ hupper =>
    cases h
    exact hupper
  · cases h

/-- The shortest decimal for a positive magnitude reads back to it. -/
theorem readsBack_shortest (tie : Tie) {m : Nat} (hm : 0 < m) :
    readsBack m (shortest tie m) = true := by
  unfold shortest
  cases h : (List.range 20).findSome? fun (i : Nat) => onGrid tie m (coarsestExponent m - i) with
  | none => exact readsBack_exact hm
  | some d =>
    obtain ⟨i, -, hi⟩ := List.exists_of_findSome?_eq_some h
    exact readsBack_onGrid hi

end Decimal

end TreeWasm
