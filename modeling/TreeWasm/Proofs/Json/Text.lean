-- SUMMARY: The ways to spell a text in a JSON string, each of which is read as the text.
import TreeWasm.Json.Text

/-!
# Spellings of a text

In a string most characters may stand for themselves, and each of them may be escaped: some by a
letter, all by their number, in two parts if it has more than 16 bits (`Escaped`). The spelling that
is written is one of these (`escaped_escapeChars`). Whatever the spelling, a string is read as the
text it spells (`scanString_escaped`).
-/

namespace TreeWasm.Json

/-! ## Spellings -/

def hexDigits : List Char :=
  ['0', '1', '2', '3', '4', '5', '6', '7', '8', '9', 'a', 'b', 'c', 'd', 'e', 'f']

def hexDigitsUpper : List Char :=
  ['0', '1', '2', '3', '4', '5', '6', '7', '8', '9', 'A', 'B', 'C', 'D', 'E', 'F']

/-- A hexadecimal digit of either case. -/
def IsHexDigit (value : Nat) (c : Char) : Prop :=
  hexDigits[value]? = some c ∨ hexDigitsUpper[value]? = some c

instance (value : Nat) (c : Char) : Decidable (IsHexDigit value c) :=
  inferInstanceAs (Decidable (_ ∨ _))

/-- A number written with four hexadecimal digits. -/
inductive HexNumber : Nat → List Char → Prop
  | mk {w x y z : Nat} {a b c d : Char} (ha : IsHexDigit w a) (hb : IsHexDigit x b)
      (hc : IsHexDigit y c) (hd : IsHexDigit z d) :
      HexNumber (16 * (16 * (16 * w + x) + y) + z) [a, b, c, d]

/-- The letters that stand for a character behind a backslash, with this character. -/
def letterEscapes : List (Char × Char) :=
  [('"', '"'), ('\\', '\\'), ('/', '/'), ('b', '\x08'), ('f', '\x0c'), ('n', '\n'), ('r', '\r'),
   ('t', '\t')]

/-- The spellings of a text between the quotes of a string. -/
inductive Escaped : List Char → List Char → Prop
  | nil : Escaped [] []
  | plain {c : Char} {text s : List Char} (hquote : c ≠ '"') (hslash : c ≠ '\\')
      (hprintable : 0x20 ≤ c.toNat) (h : Escaped text s) : Escaped (c :: text) (c :: s)
  | letter {e c : Char} {text s : List Char} (he : (e, c) ∈ letterEscapes) (h : Escaped text s) :
      Escaped (c :: text) ('\\' :: e :: s)
  | unit {c : Char} {digits text s : List Char} (hc : HexNumber c.toNat digits)
      (h : Escaped text s) : Escaped (c :: text) ('\\' :: 'u' :: (digits ++ s))
  | pair {c : Char} {high low : Nat} {digits digits' text s : List Char} (hhigh : high < 0x400)
      (hlow : low < 0x400) (hc : c.toNat = 0x10000 + 0x400 * high + low)
      (hdigits : HexNumber (0xd800 + high) digits) (hdigits' : HexNumber (0xdc00 + low) digits')
      (h : Escaped text s) :
      Escaped (c :: text) ('\\' :: 'u' :: (digits ++ '\\' :: 'u' :: (digits' ++ s)))

theorem isHexDigit_hexDigit : ∀ n < 16, IsHexDigit n (hexDigit n) := by decide

/-- A character is written as a letter, as the number of a control character, or as itself. -/
theorem escapeChar_cases (c : Char) :
    (∃ e, (e, c) ∈ letterEscapes ∧ escapeChar c = ['\\', e]) ∨
      (c.toNat < 0x20 ∧ escapeChar c =
        ['\\', 'u', '0', '0', hexDigit (c.toNat / 16), hexDigit (c.toNat % 16)]) ∨
      (c ≠ '"' ∧ c ≠ '\\' ∧ 0x20 ≤ c.toNat ∧ escapeChar c = [c]) := by
  unfold escapeChar
  iterate 7
    split
    · next hc =>
      subst hc
      exact .inl ⟨_, by decide, rfl⟩
  split
  · next hcontrol => exact .inr (.inl ⟨hcontrol, rfl⟩)
  · next hquote hslash _ _ _ _ _ hprintable =>
    exact .inr (.inr ⟨hquote, hslash, Nat.not_lt.1 hprintable, rfl⟩)

/-- However a character is written, this is a spelling of it. -/
theorem escaped_escapeChar (c : Char) {text s : List Char} (h : Escaped text s) :
    Escaped (c :: text) (escapeChar c ++ s) := by
  rcases escapeChar_cases c with ⟨e, he, hwritten⟩ | ⟨hcontrol, hwritten⟩ |
    ⟨hquote, hslash, hprintable, hwritten⟩
  · rw [hwritten]
    exact .letter he h
  · have hdigits : HexNumber (16 * (16 * (16 * 0 + 0) + c.toNat / 16) + c.toNat % 16)
        ['0', '0', hexDigit (c.toNat / 16), hexDigit (c.toNat % 16)] :=
      .mk (by decide) (by decide) (isHexDigit_hexDigit _ (by omega))
        (isHexDigit_hexDigit _ (by omega))
    have hnumber : 16 * (16 * (16 * 0 + 0) + c.toNat / 16) + c.toNat % 16 = c.toNat := by omega
    rw [hnumber] at hdigits
    rw [hwritten]
    exact .unit hdigits h
  · rw [hwritten]
    exact .plain hquote hslash hprintable h

theorem escaped_escapeChars (text : List Char) : Escaped text (text.flatMap escapeChar) := by
  induction text with
  | nil => exact .nil
  | cons c text ih => exact escaped_escapeChar c ih

/-! ## Reading -/

theorem hexValue?_of_isHexDigit {value : Nat} {c : Char} (h : IsHexDigit value c) :
    hexValue? c = some value := by
  have hlower : ∀ n < 16, hexDigits[n]?.bind hexValue? = some n := by decide
  have hupper : ∀ n < 16, hexDigitsUpper[n]?.bind hexValue? = some n := by decide
  rcases h with h | h
  · have hvalue := hlower value (List.getElem?_eq_some_iff.1 h).1
    rwa [h] at hvalue
  · have hvalue := hupper value (List.getElem?_eq_some_iff.1 h).1
    rwa [h] at hvalue

theorem hexNumber?_of_hexNumber {n : Nat} {digits : List Char} (h : HexNumber n digits) :
    hexNumber? digits = some n := by
  cases h with
  | mk ha hb hc hd =>
    simp [hexNumber?, hexValue?_of_isHexDigit ha, hexValue?_of_isHexDigit hb,
      hexValue?_of_isHexDigit hc, hexValue?_of_isHexDigit hd]

/-- An escape with the number of a code unit is a piece. -/
theorem scanPieces_unit {n : Nat} {digits : List Char} (h : HexNumber n digits) (s : List Char) :
    scanPieces ('\\' :: 'u' :: (digits ++ s)) =
      (scanPieces s).map fun (ps, rest) => (.unit n :: ps, rest) := by
  have hnumber := hexNumber?_of_hexNumber h
  cases h with
  | mk =>
    show scanPieces ('\\' :: 'u' :: _ :: _ :: _ :: _ :: s) = _
    rw [scanPieces, hnumber]
    cases scanPieces s <;> rfl

theorem scanPieces_letter {e c : Char} (h : (e, c) ∈ letterEscapes) (s : List Char) :
    scanPieces ('\\' :: e :: s) =
      (scanPieces s).map fun (ps, rest) => (.char c :: ps, rest) := by
  have hall : ∀ p ∈ letterEscapes, p.1 ≠ 'u' ∧ shortEscape? p.1 = some p.2 := by decide
  obtain ⟨he, hshort⟩ := hall (e, c) h
  rw [scanPieces.eq_def]
  split
  · next heq => cases heq
  · simp_all
  · simp_all
  · next e' s' _ heq =>
    obtain ⟨rfl, rfl⟩ : e = e' ∧ s = s' := by simpa using heq
    rw [hshort]
    cases scanPieces s <;> rfl
  · next hother heq =>
    obtain ⟨rfl, rfl⟩ := List.cons.inj heq
    exact (hother _ _ rfl rfl).elim

theorem scanPieces_plain {c : Char} (hquote : c ≠ '"') (hslash : c ≠ '\\')
    (hprintable : 0x20 ≤ c.toNat) (s : List Char) :
    scanPieces (c :: s) = (scanPieces s).map fun (ps, rest) => (.char c :: ps, rest) := by
  rw [scanPieces.eq_def]
  split
  · next heq => cases heq
  · simp_all
  · simp_all
  · simp_all
  · next c' s' _ _ _ heq =>
    obtain ⟨rfl, rfl⟩ := List.cons.inj heq
    rw [if_neg (by simp [hslash, hprintable])]
    cases scanPieces s <;> rfl

namespace Piece

/-- No character is a surrogate. -/
theorem text_unit (c : Char) (ps : List Piece) :
    text (.unit c.toNat :: ps) = (c :: ·) <$> text ps := by
  have hvalid : c.toNat < 0xd800 ∨ 0xdfff < c.toNat ∧ c.toNat < 0x110000 := c.valid
  have hhigh : isHigh c.toNat = false := by
    simp only [isHigh, Bool.and_eq_false_iff, decide_eq_false_iff_not]
    omega
  have hlow : isLow c.toNat = false := by
    simp only [isLow, Bool.and_eq_false_iff, decide_eq_false_iff_not]
    omega
  rw [text.eq_def]
  simp only [hhigh, hlow, Char.ofNat_toNat]
  rfl

/-- Two surrogates make up a character. -/
theorem text_pair {c : Char} {high low : Nat} (hhigh : high < 0x400) (hlow : low < 0x400)
    (hc : c.toNat = 0x10000 + 0x400 * high + low) (ps : List Piece) :
    text (.unit (0xd800 + high) :: .unit (0xdc00 + low) :: ps) = (c :: ·) <$> text ps := by
  have hhigh' : isHigh (0xd800 + high) = true := by
    simp only [isHigh, Bool.and_eq_true, decide_eq_true_eq]
    omega
  have hlow' : isLow (0xdc00 + low) = true := by
    simp only [isLow, Bool.and_eq_true, decide_eq_true_eq]
    omega
  have hnumber : 0x10000 + (0xd800 + high - 0xd800) * 0x400 + (0xdc00 + low - 0xdc00) =
      c.toNat := by omega
  rw [text.eq_def]
  simp only [hhigh', hlow', hnumber, Char.ofNat_toNat, if_true]

end Piece

/-- Up to its closing quote a string has pieces that spell the text. -/
theorem scanPieces_escaped {text s : List Char} (h : Escaped text s) (rest : List Char) :
    ∃ ps, scanPieces (s ++ '"' :: rest) = some (ps, rest) ∧ Piece.text ps = some text := by
  induction h with
  | nil => exact ⟨[], by rw [List.nil_append, scanPieces], rfl⟩
  | @plain c text s hquote hslash hprintable _ ih =>
    obtain ⟨ps, hscan, htext⟩ := ih
    refine ⟨.char c :: ps, ?_, by rw [Piece.text, htext]; rfl⟩
    rw [List.cons_append, scanPieces_plain hquote hslash hprintable, hscan]
    rfl
  | @letter e c text s he _ ih =>
    obtain ⟨ps, hscan, htext⟩ := ih
    refine ⟨.char c :: ps, ?_, by rw [Piece.text, htext]; rfl⟩
    rw [List.cons_append, List.cons_append, scanPieces_letter he, hscan]
    rfl
  | @unit c digits text s hc _ ih =>
    obtain ⟨ps, hscan, htext⟩ := ih
    refine ⟨.unit c.toNat :: ps, ?_, by rw [Piece.text_unit, htext]; rfl⟩
    rw [List.cons_append, List.cons_append, List.append_assoc, scanPieces_unit hc, hscan]
    rfl
  | @pair c high low digits digits' text s hhigh hlow hc hdigits hdigits' _ ih =>
    obtain ⟨ps, hscan, htext⟩ := ih
    refine ⟨.unit (0xd800 + high) :: .unit (0xdc00 + low) :: ps, ?_, ?_⟩
    · rw [List.cons_append, List.cons_append, List.append_assoc, scanPieces_unit hdigits,
        List.cons_append, List.cons_append, List.append_assoc, scanPieces_unit hdigits', hscan]
      rfl
    · rw [Piece.text_pair hhigh hlow hc, htext]
      rfl

theorem scanString_escaped {text : String} {s : List Char} (h : Escaped text.toList s)
    (rest : List Char) : scanString (s ++ '"' :: rest) = some (some text, rest) := by
  obtain ⟨ps, hscan, htext⟩ := scanPieces_escaped h rest
  rw [scanString, hscan]
  show some ((Piece.text ps).map String.ofList, rest) = _
  rw [htext, Option.map_some, String.ofList_toList]

end TreeWasm.Json
