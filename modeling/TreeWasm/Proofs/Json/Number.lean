-- SUMMARY: Numerals read back: integers that fit 64 bits stand for themselves, and nothing behind a numeral changes it.
import TreeWasm.Json.Number
import TreeWasm.Json.Printing

/-!
# Numerals read back

A number is read back if the numeral that is written for it stands for the number
(`Number.ReadsBack`). That is so for integers of 64 bits (`Number.readsBack_integer`); whether it is
so for a floating-point number depends on how the value of a numeral is computed. A numeral ends
where a character comes that cannot go on with it (`Numeral.scan_append`).
-/

namespace TreeWasm.Json

/-- The numeral that is written for the number stands for it. -/
def Number.ReadsBack (v : Number) : Prop :=
  ∃ n, Numeral.scan v.print.toList = some (n, []) ∧ n.value = v

/-- What follows does not go on with a numeral. -/
def Closes (rest : List Char) : Prop :=
  ∀ c ∈ rest.head?, c.isDigit = false ∧ c ≠ '.' ∧ c ≠ 'e' ∧ c ≠ 'E'

namespace Numeral

variable {s t rest : List Char}

/-! ## Text behind a numeral -/

theorem takeWhile_append (s : List Char) (h : Closes rest) :
    (s ++ rest).takeWhile Char.isDigit = s.takeWhile Char.isDigit := by
  induction s with
  | nil =>
    cases rest with
    | nil => rfl
    | cons c rest => simp [(h c rfl).1]
  | cons c s ih =>
    rw [List.cons_append, List.takeWhile_cons, List.takeWhile_cons, ih]

theorem dropWhile_append (s : List Char) (h : Closes rest) :
    (s ++ rest).dropWhile Char.isDigit = s.dropWhile Char.isDigit ++ rest := by
  induction s with
  | nil =>
    cases rest with
    | nil => rfl
    | cons c rest => simp [(h c rfl).1]
  | cons c s ih =>
    rw [List.cons_append, List.dropWhile_cons, List.dropWhile_cons]
    split
    · exact ih
    · rfl

theorem scanWhole_append {digits : List Char} (h : scanWhole s = some (digits, t))
    (hrest : Closes rest) : scanWhole (s ++ rest) = some (digits, t ++ rest) := by
  unfold scanWhole at h
  split at h
  · split at h
    · next c _ =>
      split at h
      · cases h
      · next hc =>
        cases h
        simp [scanWhole, hc]
    · cases h
      cases rest with
      | nil => rfl
      | cons c rest => simp [scanWhole, (hrest c rfl).1]
  · next c s hzero =>
    split at h
    · next hc =>
      cases h
      rw [List.cons_append, scanWhole.eq_def]
      split
      · next heq => exact (hzero (List.cons.inj heq).1).elim
      · next heq =>
        obtain ⟨rfl, rfl⟩ := List.cons.inj heq
        rw [if_pos hc, takeWhile_append s hrest, dropWhile_append s hrest]
      · next heq => cases heq
    · cases h
  · cases h

theorem scanFraction_append {digits : List Char} (h : scanFraction s = some (digits, t))
    (hrest : Closes rest) : scanFraction (s ++ rest) = some (digits, t ++ rest) := by
  unfold scanFraction at h
  split at h
  · next s =>
    simp only at h
    split at h
    · cases h
    · next hdigits =>
      cases h
      simp only [List.cons_append, scanFraction, takeWhile_append s hrest, dropWhile_append s hrest]
      rw [if_neg hdigits]
  · next hpoint =>
    cases h
    rw [scanFraction.eq_def]
    split
    · next heq =>
      cases s with
      | nil => exact ((hrest '.' (congrArg List.head? heq)).2.1 rfl).elim
      | cons c s => exact (hpoint s (congrArg (· :: s) (List.cons.inj heq).1)).elim
    · rfl

theorem scanExponentDigits_append {negative : Bool} {e : Option Int}
    (h : scanExponentDigits negative s = some (e, t)) (hrest : Closes rest) :
    scanExponentDigits negative (s ++ rest) = some (e, t ++ rest) := by
  unfold scanExponentDigits at h ⊢
  rw [takeWhile_append s hrest, dropWhile_append s hrest]
  simp only at h ⊢
  split at h
  · cases h
  · next hdigits =>
    cases h
    rw [if_neg hdigits]

/-- Behind the letter of an exponent, a sign may stand in front of the digits. -/
theorem scanExponent_cons {c : Char} (hc : c = 'e' ∨ c = 'E') (d : Char) (s : List Char) :
    scanExponent (c :: d :: s) =
      if d = '-' then scanExponentDigits true s
      else if d = '+' then scanExponentDigits false s
      else scanExponentDigits false (d :: s) := by
  by_cases hminus : d = '-'
  · subst hminus
    simp [scanExponent, hc]
  · by_cases hplus : d = '+'
    · subst hplus
      simp [scanExponent, hc]
    · simp [scanExponent, hc, hminus, hplus]

theorem scanExponent_append {e : Option Int} (h : scanExponent s = some (e, t))
    (hrest : Closes rest) : scanExponent (s ++ rest) = some (e, t ++ rest) := by
  have hother {c : Char} (hc : ¬(c = 'e' ∨ c = 'E')) (s : List Char) :
      scanExponent (c :: s) = some (none, c :: s) := by
    simp [scanExponent, hc]
  cases s with
  | nil =>
    cases h
    cases rest with
    | nil => rfl
    | cons c rest => exact hother (by simp [(hrest c rfl).2.2.1, (hrest c rfl).2.2.2]) rest
  | cons c s =>
    by_cases hc : c = 'e' ∨ c = 'E'
    · cases s with
      | nil =>
        simp only [scanExponent, if_pos hc] at h
        cases h
      | cons d s =>
        rw [scanExponent_cons hc] at h
        rw [List.cons_append, List.cons_append, scanExponent_cons hc]
        split at h
        · next hminus =>
          rw [if_pos hminus]
          exact scanExponentDigits_append h hrest
        · next hminus =>
          rw [if_neg hminus]
          split at h
          · next hplus =>
            rw [if_pos hplus]
            exact scanExponentDigits_append h hrest
          · next hplus =>
            rw [if_neg hplus]
            exact scanExponentDigits_append h hrest
    · rw [hother hc] at h
      cases h
      exact hother hc _

theorem scanUnsigned_append {negative : Bool} {n : Numeral}
    (h : scanUnsigned negative s = some (n, t)) (hrest : Closes rest) :
    scanUnsigned negative (s ++ rest) = some (n, t ++ rest) := by
  simp only [scanUnsigned, Option.bind_eq_bind, Option.bind_eq_some_iff, Prod.exists] at h
  obtain ⟨whole, s₁, h₁, fraction, s₂, h₂, exponent, s₃, h₃, h₄⟩ := h
  cases h₄
  unfold scanUnsigned
  rw [scanWhole_append h₁ hrest]
  show (scanFraction (s₁ ++ rest)).bind _ = _
  rw [scanFraction_append h₂ hrest]
  show (scanExponent (s₂ ++ rest)).bind _ = _
  rw [scanExponent_append h₃ hrest]
  rfl

/-- A numeral is the same whatever stands behind it, as long as that does not go on with it. -/
theorem scan_append {n : Numeral} (h : scan s = some (n, t)) (hrest : Closes rest) :
    scan (s ++ rest) = some (n, t ++ rest) := by
  unfold scan at h
  split at h
  · next s => exact scanUnsigned_append h hrest
  · next hminus =>
    have hlater := scanUnsigned_append h hrest
    cases s with
    | nil => cases h
    | cons c s =>
      unfold scan
      split
      · next heq => exact (hminus _ (congrArg (· :: s) (List.cons.inj heq).1)).elim
      · exact hlater

/-! ## Integers -/

theorem head?_toDigits_ne_zero {n : Nat} (h : 0 < n) : (Nat.toDigits 10 n).head? ≠ some '0' := by
  induction n using Nat.strongRecOn with
  | ind n ih =>
    by_cases hn : n < 10
    · rw [Nat.toDigits_of_lt_base hn]
      have hdigit : ∀ d < 10, 0 < d → d.digitChar ≠ '0' := by decide
      simpa using hdigit n hn h
    · rw [Nat.toDigits_of_base_le (by decide) (by omega), List.head?_append]
      have hlead := ih (n / 10) (by omega) (by omega)
      cases hdigits : Nat.toDigits 10 (n / 10) with
      | nil => exact (Nat.ne_of_gt Nat.length_toDigits_pos (congrArg List.length hdigits)).elim
      | cons c cs =>
        rw [hdigits] at hlead
        exact hlead

/-- The digits of a number are a numeral that ends behind them. -/
theorem scanUnsigned_toDigits (negative : Bool) (n : Nat) :
    scanUnsigned negative (Nat.toDigits 10 n) =
      some (⟨negative, Nat.toDigits 10 n, [], none⟩, []) := by
  have hwhole : scanWhole (Nat.toDigits 10 n) = some (Nat.toDigits 10 n, []) := by
    have hall : ∀ c ∈ Nat.toDigits 10 n, c.isDigit = true :=
      fun c hc => Nat.isDigit_of_mem_toDigits (by decide) (by decide) hc
    cases Nat.eq_zero_or_pos n with
    | inl hzero =>
      subst hzero
      rfl
    | inr hpos =>
      have hlead := head?_toDigits_ne_zero hpos
      generalize hdigits : Nat.toDigits 10 n = digits at hall hlead ⊢
      cases digits with
      | nil => exact (Nat.ne_of_gt Nat.length_toDigits_pos (congrArg List.length hdigits)).elim
      | cons c cs =>
        have hcs : ∀ d ∈ cs, d.isDigit = true := fun d hd => hall d (List.mem_cons_of_mem _ hd)
        rw [scanWhole.eq_def]
        split
        · next heq =>
          obtain ⟨rfl, -⟩ := List.cons.inj heq
          exact (hlead rfl).elim
        · next heq =>
          obtain ⟨rfl, rfl⟩ := List.cons.inj heq
          have htake : (cs ++ []).takeWhile Char.isDigit = cs ++ [] :=
            List.takeWhile_append_of_pos hcs
          have hdrop : (cs ++ []).dropWhile Char.isDigit = [] := List.dropWhile_append_of_pos hcs
          rw [List.append_nil] at htake hdrop
          rw [if_pos (hall c List.mem_cons_self), htake, hdrop]
        · next heq => cases heq
  unfold scanUnsigned
  rw [hwhole]
  rfl

theorem natValue_toDigits (n : Nat) : natValue (Nat.toDigits 10 n) = n :=
  Nat.ofDigitChars_toDigits (by decide) (by decide)

end Numeral

/-- Integers of 64 bits, signed or not, are read back. -/
theorem Number.readsBack_integer {v : Int} (hleast : -2 * v ≤ UInt64.size)
    (hgreatest : v < UInt64.size) : (Number.integer v).ReadsBack := by
  cases v with
  | ofNat n =>
    refine ⟨⟨false, Nat.toDigits 10 n, [], none⟩, ?_, ?_⟩
    · show Numeral.scan n.repr.toList = _
      rw [Nat.toList_repr]
      have hscan := Numeral.scanUnsigned_toDigits false n
      unfold Numeral.scan
      split
      · next heq =>
        have hdigit : ('-' : Char).isDigit = true :=
          Nat.isDigit_of_mem_toDigits (by decide) (by decide) (heq ▸ List.mem_cons_self)
        cases hdigit
      · exact hscan
    · have hlt : n < UInt64.size := Int.ofNat_lt.1 hgreatest
      unfold Numeral.value
      rw [Numeral.natValue_toDigits]
      exact if_pos hlt
  | negSucc n =>
    refine ⟨⟨true, Nat.toDigits 10 (n + 1), [], none⟩, ?_, ?_⟩
    · show Numeral.scan ("-" ++ (n + 1).repr).toList = _
      rw [String.toList_append, Nat.toList_repr]
      exact Numeral.scanUnsigned_toDigits true (n + 1)
    · have hle : 0 < n + 1 ∧ 2 * (n + 1) ≤ UInt64.size := ⟨n.succ_pos, by omega⟩
      unfold Numeral.value
      rw [Numeral.natValue_toDigits]
      show (if 0 < n + 1 ∧ 2 * (n + 1) ≤ UInt64.size then Number.integer (-(n + 1 : Nat))
        else _) = _
      rw [if_pos hle]
      rfl

end TreeWasm.Json
