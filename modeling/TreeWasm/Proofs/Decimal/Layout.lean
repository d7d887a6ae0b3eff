-- SUMMARY: The characters that numbers are written with, and that numbers can be told from their texts.
import TreeWasm.Decimal.Layout
import TreeWasm.Proofs.Decimal.Shortest
import TreeWasm.Proofs.Text.Lines

/-!
# Texts of numbers

Numbers are written with digits, letters, signs and a point, whatever the layout. None of these
characters gives a listing its shape (`Layout.lacks_float`). A text is written for one number only,
in whichever of the two ways: the digits and the point, or the exponent, say which decimal it is,
and the shortest decimals of different magnitudes stand for different numbers (`Layout.float_inj`).
-/

namespace TreeWasm

theorem toList_natToString (n : Nat) : (toString n).toList = Nat.toDigits 10 n := Nat.toList_repr

theorem isDigit_of_mem_toDigits {n : Nat} {c : Char} (h : c ∈ Nat.toDigits 10 n) :
    c.isDigit = true :=
  Nat.isDigit_of_mem_toDigits (by decide) (by decide) h

/-! ## Characters of numbers -/

theorem lacks_shaping_toDigits {n : Nat} {c : Char} (hc : c ∈ Nat.toDigits 10 n) : c ∉ shaping :=
  not_mem_shaping_of_isDigit (isDigit_of_mem_toDigits hc)

theorem lacks_natToString (n : Nat) : Lacks shaping (toString n) := by
  intro c hc
  rw [toList_natToString] at hc
  exact lacks_shaping_toDigits hc

theorem lacks_intToString (n : Int) : Lacks shaping (toString n) := by
  cases n with
  | ofNat n => exact lacks_natToString n
  | negSucc n => exact (show Lacks shaping "-" by decide).append (lacks_natToString (n + 1))

namespace Layout

theorem lacks_zeros (n : Nat) : Lacks shaping (zeros n) := by
  refine lacks_ofList fun c hc => ?_
  rw [(List.mem_replicate.1 hc).2]
  decide

theorem lacks_plain {digits : List Char} (h : ∀ c ∈ digits, c ∉ shaping) (exponent : Int) :
    Lacks shaping (plain digits exponent) := by
  unfold plain
  split
  · exact ((lacks_ofList h).append (lacks_zeros _)).append (by decide)
  · dsimp only
    split
    · refine ((lacks_ofList ?_).append (by decide)).append (lacks_ofList ?_)
      · exact fun c hc => h c (List.mem_of_mem_take hc)
      · exact fun c hc => h c (List.mem_of_mem_drop hc)
    · exact ((show Lacks shaping "0." by decide).append (lacks_zeros _)).append (lacks_ofList h)

theorem lacks_scientific (layout : Layout) {digits : List Char} (h : ∀ c ∈ digits, c ∉ shaping)
    (leading : Int) : Lacks shaping (layout.scientific digits leading) := by
  have hsign : Lacks shaping (if layout.plusOnExponent && 0 < leading then "+" else "") := by
    split <;> decide
  refine Lacks.append (Lacks.append (Lacks.append ?_ (by decide)) hsign) (lacks_intToString leading)
  obtain _ | ⟨first, _ | ⟨second, rest⟩⟩ := digits
  · exact lacks_ofList h
  · exact lacks_ofList h
  · refine lacks_ofList fun c hc => ?_
    simp only [List.mem_cons] at h hc
    rcases hc with hc | rfl | hc
    · exact h c (.inl hc)
    · decide
    · exact h c (.inr hc)

/-- The text of a floating-point number has no character that gives a listing its shape. -/
theorem lacks_float (layout : Layout) (x : Binary64) : Lacks shaping (layout.float x) := by
  unfold float
  split
  · decide
  refine Lacks.append (by split <;> decide) ?_
  split
  · decide
  split
  · decide
  unfold decimal
  dsimp only
  split
  · exact lacks_plain (fun c hc => lacks_shaping_toDigits hc) _
  · exact layout.lacks_scientific (fun c hc => lacks_shaping_toDigits hc) _

end Layout

/-! ## Numbers from their texts -/

theorem toDigits_inj {m n : Nat} (h : Nat.toDigits 10 m = Nat.toDigits 10 n) : m = n := by
  rw [← Nat.ofDigitChars_ten_toDigits (n := m), h, Nat.ofDigitChars_ten_toDigits]

theorem natToString_inj {m n : Nat} (h : toString m = toString n) : m = n := by
  have hlists := congrArg String.toList h
  rw [toList_natToString, toList_natToString] at hlists
  exact toDigits_inj hlists

/-- A number that is not negative starts with a digit. -/
theorem toList_natToString_ne {c : Char} (hc : c.isDigit = false) (n : Nat) (cs : List Char) :
    (toString n).toList ≠ c :: cs := by
  intro h
  rw [toList_natToString] at h
  have hmem : c ∈ Nat.toDigits 10 n := by simp [h]
  exact nomatch hc.symm.trans (isDigit_of_mem_toDigits hmem)

theorem toList_negSucc (n : Nat) :
    (toString (Int.negSucc n)).toList = '-' :: (toString (n + 1)).toList := by
  have htext : toString (Int.negSucc n) = "-" ++ toString (n + 1) := rfl
  simp [htext]

theorem intToString_inj {m n : Int} (h : toString m = toString n) : m = n := by
  have hlists := congrArg String.toList h
  cases m with
  | ofNat m =>
    cases n with
    | ofNat n => exact congrArg Int.ofNat (natToString_inj h)
    | negSucc n => exact absurd (hlists.trans (toList_negSucc n)) (toList_natToString_ne rfl m _)
  | negSucc m =>
    cases n with
    | ofNat n =>
      exact absurd (hlists.symm.trans (toList_negSucc m)) (toList_natToString_ne rfl n _)
    | negSucc n =>
      rw [toList_negSucc, toList_negSucc] at hlists
      have hsucc := natToString_inj (String.toList_inj.1 (List.cons.inj hlists).2)
      rw [Nat.succ.inj hsucc]

theorem toList_intToString_ne_plus (n : Int) (cs : List Char) :
    (toString n).toList ≠ '+' :: cs := by
  cases n with
  | ofNat n => exact toList_natToString_ne rfl n cs
  | negSucc n =>
    rw [toList_negSucc]
    simp

namespace Layout

/-- Digits in front of a point and behind it, and the decimal that they stand for. -/
structure Pointed (before behind : List Char) (d : Decimal) : Prop where
  ne_nil : before ≠ []
  isDigit : ∀ c ∈ before ++ behind, c.isDigit = true
  eq : d = ⟨Nat.ofDigitChars 10 (before ++ behind) 0, -behind.length⟩

/-- The point is the first one. -/
theorem Pointed.not_mem {before behind : List Char} {d : Decimal} (h : Pointed before behind d) :
    '.' ∉ before := fun hmem => absurd (h.isDigit _ (List.mem_append_left _ hmem)) (by decide)

theorem isDigit_of_mem_replicate (n : Nat) : ∀ c ∈ List.replicate n '0', c.isDigit = true := by
  intro c hc
  rw [(List.mem_replicate.1 hc).2]
  decide

section

variable {digits : List Char} {d : Decimal}
  (hvalue : Nat.ofDigitChars 10 digits 0 = d.digits) (hdigits : ∀ c ∈ digits, c.isDigit = true)
include hvalue hdigits

/-- A whole number has its point behind zeros. -/
theorem pointed_zeros (hne : digits ≠ []) (hexponent : 0 ≤ d.exponent) :
    Pointed (digits ++ List.replicate d.exponent.toNat '0') ['0']
      (d.shift (d.exponent.toNat + 1)) where
  ne_nil := by simp [hne]
  isDigit := by
    simp only [List.forall_mem_append]
    exact ⟨⟨hdigits, isDigit_of_mem_replicate _⟩, List.forall_mem_singleton.2 rfl⟩
  eq := by
    have hread : Nat.ofDigitChars 10
        (digits ++ List.replicate d.exponent.toNat '0' ++ ['0']) 0 =
          d.digits * Nat.pow 10 (d.exponent.toNat + 1) := by
      rw [Nat.ofDigitChars_append, Nat.ofDigitChars_append, hvalue,
        Nat.ofDigitChars_replicate_zero, Nat.ofDigitChars_cons, Decimal.ten_succ]
      simp only [Nat.ofDigitChars_nil, Nat.pow_eq]
      ac_rfl
    rw [hread, Decimal.shift, List.length_singleton]
    congr 1
    omega

/-- The point may be among the digits. -/
theorem pointed_inside (hexponent : d.exponent < 0) (hpoint : 0 < digits.length + d.exponent) :
    Pointed (digits.take (digits.length + d.exponent).toNat)
      (digits.drop (digits.length + d.exponent).toNat) (d.shift 0) where
  ne_nil := by
    have hlength : (digits.take (digits.length + d.exponent).toNat).length ≠ 0 := by
      rw [List.length_take]
      omega
    exact fun hnil => hlength (List.length_eq_zero_iff.2 hnil)
  isDigit := by
    rw [List.take_append_drop]
    exact hdigits
  eq := by
    rw [List.take_append_drop, hvalue, List.length_drop, Decimal.shift_zero]
    refine congrArg (Decimal.mk d.digits) ?_
    omega

/-- A number below one has its point in front of zeros. -/
theorem pointed_below (hpoint : digits.length + d.exponent ≤ 0) :
    Pointed ['0'] (List.replicate (-(digits.length + d.exponent)).toNat '0' ++ digits)
      (d.shift 0) where
  ne_nil := List.cons_ne_nil _ _
  isDigit := by
    simp only [List.forall_mem_append]
    exact ⟨List.forall_mem_singleton.2 rfl, isDigit_of_mem_replicate _, hdigits⟩
  eq := by
    have hread : Nat.ofDigitChars 10
        (['0'] ++ (List.replicate (-(digits.length + d.exponent)).toNat '0' ++ digits)) 0 =
          d.digits := by
      rw [Nat.ofDigitChars_append, Nat.ofDigitChars_append, Nat.ofDigitChars_cons,
        Nat.ofDigitChars_nil, Nat.ofDigitChars_replicate_zero]
      simpa using hvalue
    rw [hread, Decimal.shift_zero, List.length_append, List.length_replicate]
    refine congrArg (Decimal.mk d.digits) ?_
    omega

end

/-- A positional text is digits with a point among them, and these stand for the decimal. -/
theorem plain_eq (d : Decimal) : ∃ (before behind : List Char) (zeros : Nat),
    (plain (Nat.toDigits 10 d.digits) d.exponent).toList = before ++ '.' :: behind ∧
      Pointed before behind (d.shift zeros) := by
  have hvalue : Nat.ofDigitChars 10 (Nat.toDigits 10 d.digits) 0 = d.digits :=
    Nat.ofDigitChars_ten_toDigits
  have hdigits : ∀ c ∈ Nat.toDigits 10 d.digits, c.isDigit = true :=
    fun _ hc => isDigit_of_mem_toDigits hc
  have hne : Nat.toDigits 10 d.digits ≠ [] := Nat.toDigits_ne_nil
  generalize Nat.toDigits 10 d.digits = digits at hvalue hdigits hne ⊢
  unfold plain
  dsimp only
  split
  · next hexponent =>
    exact ⟨_, _, _, by simp [zeros], pointed_zeros hvalue hdigits hne hexponent⟩
  · next hexponent =>
    split
    · next hpoint =>
      have hpointed := pointed_inside hvalue hdigits (Int.not_le.1 hexponent) hpoint
      exact ⟨_, _, 0, by simp, hpointed⟩
    · next hpoint =>
      have hpointed := pointed_below hvalue hdigits (Int.not_lt.1 hpoint)
      exact ⟨_, _, 0, by simp [zeros], hpointed⟩

/-- The text of an exponent. -/
def exponentText (layout : Layout) (leading : Int) : String :=
  (if layout.plusOnExponent && 0 < leading then "+" else "") ++ toString leading

theorem exponentText_inj {layout : Layout} {m n : Int}
    (h : layout.exponentText m = layout.exponentText n) : m = n := by
  have hplus : ∀ k : Int, ("+" ++ toString k).toList = '+' :: (toString k).toList := by simp
  unfold exponentText at h
  split at h <;> split at h
  · exact intToString_inj ((String.append_right_inj "+").1 h)
  · rw [String.empty_append] at h
    exact absurd ((congrArg String.toList h).symm.trans (hplus m)) (toList_intToString_ne_plus n _)
  · rw [String.empty_append] at h
    exact absurd ((congrArg String.toList h).trans (hplus n)) (toList_intToString_ne_plus m _)
  · rw [String.empty_append, String.empty_append] at h
    exact intToString_inj h

/-- A text with an exponent has the digits in front of it. -/
theorem scientific_eq (layout : Layout) {digits : List Char} (hne : digits ≠ [])
    (hdigits : ∀ c ∈ digits, c.isDigit = true) (leading : Int) :
    ∃ mantissa, (layout.scientific digits leading).toList =
        mantissa ++ 'e' :: (layout.exponentText leading).toList ∧
      mantissa.filter Char.isDigit = digits ∧ 'e' ∉ mantissa ∧
      ∃ c rest, mantissa = c :: rest ∧ c.isDigit = true := by
  have hfilter := List.filter_eq_self.2 hdigits
  have hmem : 'e' ∉ digits := fun h => absurd (hdigits _ h) (by decide)
  unfold scientific exponentText
  dsimp only
  obtain _ | ⟨first, _ | ⟨second, rest⟩⟩ := digits
  · exact absurd rfl hne
  · exact ⟨[first], by simp, hfilter, hmem, first, [], rfl, hdigits first List.mem_cons_self⟩
  · refine ⟨first :: '.' :: second :: rest, by simp, ?_, ?_, first, _, rfl,
      hdigits first List.mem_cons_self⟩
    · rw [List.filter_cons_of_pos (hdigits first List.mem_cons_self),
        List.filter_cons_of_neg (by decide)]
      exact congrArg (first :: ·) (List.filter_eq_self.2 fun c hc =>
        hdigits c (List.mem_cons_of_mem _ hc))
    · simpa using hmem

/-- The text is written for the decimal, in one of the two ways. -/
def Writes (layout : Layout) (s : String) (d : Decimal) : Prop :=
  s = plain (Nat.toDigits 10 d.digits) d.exponent ∨
  s = layout.scientific (Nat.toDigits 10 d.digits)
    (d.exponent + (Nat.toDigits 10 d.digits).length - 1)

variable {layout : Layout} {s : String} {d d' : Decimal}

theorem writes_decimal (layout : Layout) (d : Decimal) : layout.Writes (layout.decimal d) d := by
  unfold decimal
  dsimp only
  split
  · exact .inl rfl
  · exact .inr rfl

theorem writes_zero (layout : Layout) : layout.Writes "0.0" ⟨0, 0⟩ := .inl (by decide)

theorem Writes.head (h : layout.Writes s d) :
    ∃ c rest, s.toList = c :: rest ∧ c.isDigit = true := by
  rcases h with rfl | rfl
  · obtain ⟨before, behind, _, htext, hpointed⟩ := plain_eq d
    obtain ⟨c, rest, rfl⟩ := List.exists_cons_of_ne_nil hpointed.ne_nil
    exact ⟨c, _, htext, hpointed.isDigit c List.mem_cons_self⟩
  · obtain ⟨_, htext, -, -, c, rest, rfl, hc⟩ := layout.scientific_eq Nat.toDigits_ne_nil
      (fun _ hc => isDigit_of_mem_toDigits hc)
      (d.exponent + (Nat.toDigits 10 d.digits).length - 1)
    exact ⟨c, _, htext, hc⟩

theorem plain_ne_scientific (layout : Layout) (d d' : Decimal) (leading : Int) :
    plain (Nat.toDigits 10 d.digits) d.exponent ≠
      layout.scientific (Nat.toDigits 10 d'.digits) leading := by
  intro h
  obtain ⟨before, behind, _, htext, hpointed⟩ := plain_eq d
  obtain ⟨mantissa, htext', -⟩ := layout.scientific_eq (Nat.toDigits_ne_nil (n := d'.digits))
    (fun _ hc => isDigit_of_mem_toDigits hc) leading
  have he : 'e' ∈ before ++ '.' :: behind := by
    rw [← htext, h, htext']
    simp
  have hdigit : ('e' : Char).isDigit = false := by decide
  rcases List.mem_append.1 he with he | he
  · exact nomatch hdigit.symm.trans (hpointed.isDigit _ (List.mem_append_left _ he))
  · rcases List.mem_cons.1 he with he | he
    · exact absurd he (by decide)
    · exact nomatch hdigit.symm.trans (hpointed.isDigit _ (List.mem_append_right _ he))

/-- A text is written for one number only. -/
theorem Writes.shift_eq (h : layout.Writes s d) (h' : layout.Writes s d') :
    ∃ zeros zeros', d.shift zeros = d'.shift zeros' := by
  rcases h with rfl | rfl <;> rcases h' with h' | h'
  · obtain ⟨before, behind, zeros, htext, hpointed⟩ := plain_eq d
    obtain ⟨before', behind', zeros', htext', hpointed'⟩ := plain_eq d'
    rw [h', htext'] at htext
    obtain ⟨rfl, hbehind⟩ := append_inj_of_startsWith hpointed'.not_mem hpointed.not_mem
      (startsWith_cons '.' _) (startsWith_cons '.' _) htext
    obtain ⟨-, rfl⟩ := List.cons.inj hbehind
    exact ⟨zeros, zeros', hpointed.eq.trans hpointed'.eq.symm⟩
  · exact absurd h' (layout.plain_ne_scientific d d' _)
  · exact absurd h'.symm (layout.plain_ne_scientific d' d _)
  · obtain ⟨mantissa, htext, hfilter, he, -⟩ := layout.scientific_eq Nat.toDigits_ne_nil
      (fun _ hc => isDigit_of_mem_toDigits hc)
      (d.exponent + (Nat.toDigits 10 d.digits).length - 1)
    obtain ⟨mantissa', htext', hfilter', he', -⟩ := layout.scientific_eq Nat.toDigits_ne_nil
      (fun _ hc => isDigit_of_mem_toDigits hc)
      (d'.exponent + (Nat.toDigits 10 d'.digits).length - 1)
    rw [h', htext'] at htext
    obtain ⟨rfl, hexponent⟩ := append_inj_of_startsWith he' he (startsWith_cons 'e' _)
      (startsWith_cons 'e' _) htext
    have hdigits := hfilter'.symm.trans hfilter
    have hleading := exponentText_inj (String.toList_inj.1 (List.cons.inj hexponent).2)
    rw [hdigits] at hleading
    have hsame : d = d' := by
      obtain ⟨_, exponent⟩ := d
      obtain ⟨_, exponent'⟩ := d'
      obtain rfl := toDigits_inj hdigits
      obtain rfl : exponent = exponent' := by
        dsimp only at hleading
        omega
      rfl
    exact ⟨0, 0, by rw [hsame]⟩

/-- The decimal that is written for a magnitude. -/
def decimalOf (tie : Tie) (m : Nat) : Decimal := if m = 0 then ⟨0, 0⟩ else .shortest tie m

theorem decimalOf_digits_eq_zero_iff {tie : Tie} {m : Nat} :
    (decimalOf tie m).digits = 0 ↔ m = 0 := by
  unfold decimalOf
  split
  · next hm => simp [hm]
  · next hm =>
    have hpos := Decimal.digits_pos_of_readsBack (Nat.pos_of_ne_zero hm)
      (Decimal.readsBack_shortest tie (Nat.pos_of_ne_zero hm))
    simp [hm, Nat.ne_of_gt hpos]

/-- Different magnitudes have decimals that stand for different numbers. -/
theorem decimalOf_inj {tie : Tie} {m n zeros zeros' : Nat}
    (h : (decimalOf tie m).shift zeros = (decimalOf tie n).shift zeros') : m = n := by
  have hten : ∀ k, Nat.pow 10 k ≠ 0 := fun k => Nat.ne_of_gt (Nat.pow_pos (by decide))
  have hdigits := congrArg Decimal.digits h
  simp only [Decimal.shift] at hdigits
  by_cases hm : m = 0
  · rw [decimalOf_digits_eq_zero_iff.2 hm, Nat.zero_mul] at hdigits
    rcases Nat.mul_eq_zero.1 hdigits.symm with hn | hn
    · rw [hm, decimalOf_digits_eq_zero_iff.1 hn]
    · exact absurd hn (hten zeros')
  · by_cases hn : n = 0
    · rw [decimalOf_digits_eq_zero_iff.2 hn, Nat.zero_mul] at hdigits
      rcases Nat.mul_eq_zero.1 hdigits with hm' | hm'
      · exact absurd (decimalOf_digits_eq_zero_iff.1 hm') hm
      · exact absurd hm' (hten zeros)
    · have hreads := Decimal.readsBack_shortest tie (Nat.pos_of_ne_zero hm)
      have hreads' := Decimal.readsBack_shortest tie (Nat.pos_of_ne_zero hn)
      rw [decimalOf, decimalOf, if_neg hm, if_neg hn] at h
      rw [← Decimal.readsBack_shift n _ zeros', ← h, Decimal.readsBack_shift] at hreads'
      exact Decimal.readsBack_unique hreads hreads'

/-- The text of a floating-point number without its sign. -/
def unsigned (layout : Layout) (x : Binary64) : String :=
  if x.isInfinite then "inf"
  else if x.magnitude = 0 then "0.0"
  else layout.decimal (.shortest layout.tie x.magnitude)

variable {x y : Binary64}

theorem float_eq (h : x.isNaN = false) :
    layout.float x = (if x.isNegative then "-" else "") ++ layout.unsigned x := by
  unfold float unsigned
  rw [if_neg (by simp [h])]

theorem writes_unsigned (layout : Layout) (h : x.isInfinite = false) :
    layout.Writes (layout.unsigned x) (decimalOf layout.tie x.magnitude) := by
  unfold unsigned decimalOf
  rw [if_neg (by simp [h])]
  split
  · exact layout.writes_zero
  · exact layout.writes_decimal _

theorem unsigned_ne_minus (layout : Layout) (x : Binary64) (s : String) :
    layout.unsigned x ≠ "-" ++ s := by
  intro h
  cases hx : x.isInfinite with
  | true =>
    rw [unsigned, if_pos hx] at h
    simp [String.ext_iff] at h
  | false =>
    obtain ⟨c, rest, htext, hc⟩ := (layout.writes_unsigned hx).head
    rw [h] at htext
    have hminus : c = '-' := by simpa using (congrArg List.head? htext).symm
    exact absurd hc (by simp [hminus])

theorem magnitude_eq_of_unsigned (h : layout.unsigned x = layout.unsigned y) :
    x.magnitude = y.magnitude := by
  have hinf : ∀ {x : Binary64}, x.isInfinite = false → layout.unsigned x ≠ "inf" := by
    intro x hx heq
    obtain ⟨c, rest, htext, hc⟩ := (layout.writes_unsigned hx).head
    rw [heq] at htext
    have hi : c = 'i' := by simpa using (congrArg List.head? htext).symm
    exact absurd hc (by simp [hi])
  have hinfinite : ∀ {x : Binary64}, x.isInfinite = true → layout.unsigned x = "inf" :=
    fun hx => if_pos hx
  cases hx : x.isInfinite with
  | true =>
    cases hy : y.isInfinite with
    | true => rw [eq_of_beq hx, eq_of_beq hy]
    | false => exact absurd (h.symm.trans (hinfinite hx)) (hinf hy)
  | false =>
    cases hy : y.isInfinite with
    | true => exact absurd (h.trans (hinfinite hy)) (hinf hx)
    | false =>
      obtain ⟨_, _, hshift⟩ := (layout.writes_unsigned hx).shift_eq (h ▸ layout.writes_unsigned hy)
      exact decimalOf_inj hshift

/-- Different numbers have different texts. -/
theorem float_inj (hx : x.isNaN = false) (hy : y.isNaN = false)
    (h : layout.float x = layout.float y) : x = y := by
  rw [float_eq hx, float_eq hy] at h
  rw [← x.ofMagnitude_magnitude, ← y.ofMagnitude_magnitude]
  cases hnx : x.isNegative <;> cases hny : y.isNegative <;> rw [hnx, hny] at h
  · simp only [Bool.false_eq_true, if_false, String.empty_append] at h
    rw [magnitude_eq_of_unsigned h]
  · simp only [Bool.false_eq_true, if_false, if_true, String.empty_append] at h
    exact absurd h (layout.unsigned_ne_minus x _)
  · simp only [Bool.false_eq_true, if_false, if_true, String.empty_append] at h
    exact absurd h.symm (layout.unsigned_ne_minus y _)
  · simp only [if_true, String.append_right_inj] at h
    rw [magnitude_eq_of_unsigned h]

end Layout

end TreeWasm
