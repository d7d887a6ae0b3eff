-- SUMMARY: The texts that hold given tokens, with any blanks between them and any spelling of strings.
import TreeWasm.Json.Token
import TreeWasm.Proofs.Json.Number
import TreeWasm.Proofs.Json.Text

/-!
# Texts of tokens

A token has a text of its own, a string more than one, and blanks may stand around each
(`Renders`). Such a text is cut into its tokens again, provided that no number runs into what
follows it (`tokens_of_renders`).
-/

namespace TreeWasm.Json

/-! ## Tokens at the front of a text -/

@[simp] theorem tokens_nil : tokens [] = [] := by rw [tokens]

theorem tokens_blank {c : Char} (h : isBlank c = true) (s : List Char) :
    tokens (c :: s) = tokens s := by
  rw [tokens, if_pos h]

theorem tokens_punctuation {c : Char} {t : Token} (h : punctuation? c = some t) (s : List Char) :
    tokens (c :: s) = t :: tokens s := by
  have hblank : isBlank c = false := by
    unfold punctuation? at h
    split at h <;> first | rfl | cases h
  rw [tokens, if_neg (by simp [hblank]), h]

theorem tokens_word {c : Char} {s rest : List Char} {w : Token} (hblank : isBlank c = false)
    (hpunctuation : punctuation? c = none) (h : scanWord (c :: s) = some (w, rest)) :
    tokens (c :: s) = w :: tokens rest := by
  rw [tokens, if_neg (by simp [hblank]), hpunctuation]
  simp only
  split
  · next heq =>
    cases h.symm.trans heq
    rfl
  · next heq => cases h.symm.trans heq

theorem tokens_string {text : String} {s : List Char} (h : Escaped text.toList s)
    (rest : List Char) :
    tokens ('"' :: (s ++ '"' :: rest)) = .string (some text) :: tokens rest := by
  refine tokens_word (by decide) (by decide) ?_
  rw [scanWord, scanString_escaped h]
  rfl

/-- A numeral starts with a digit or with a minus sign. -/
theorem Numeral.head_of_scan {s t : List Char} {n : Numeral} (h : scan s = some (n, t)) :
    ∃ c s', s = c :: s' ∧ (c = '-' ∨ c.isDigit = true) := by
  cases s with
  | nil => cases h
  | cons c s =>
    refine ⟨c, s, rfl, ?_⟩
    by_cases hminus : c = '-'
    · exact .inl hminus
    · right
      have hwhole : ∃ p, scanWhole (c :: s) = some p := by
        unfold scan at h
        split at h
        · next heq => exact (hminus (List.cons.inj heq).1).elim
        · obtain ⟨p, hp, -⟩ := Option.bind_eq_some_iff.1 h
          exact ⟨p, hp⟩
      obtain ⟨p, hp⟩ := hwhole
      rw [scanWhole.eq_def] at hp
      split at hp
      · next heq =>
        obtain ⟨rfl, -⟩ := List.cons.inj heq
        rfl
      · next heq =>
        obtain ⟨rfl, rfl⟩ := List.cons.inj heq
        split at hp
        · assumption
        · cases hp
      · next heq => cases heq

theorem tokens_number {v : Number} (h : v.ReadsBack) {rest : List Char} (hrest : Closes rest) :
    tokens (v.print.toList ++ rest) = .number v :: tokens rest := by
  obtain ⟨n, hscan, rfl⟩ := h
  obtain ⟨c, s, hs, hc⟩ := Numeral.head_of_scan hscan
  have hlater := Numeral.scan_append hscan hrest
  rw [hs, List.cons_append] at hlater
  rw [hs, List.cons_append]
  have hother (d : Char) (hminus : d ≠ '-') (hdigit : d.isDigit = false) : c ≠ d := by
    rintro rfl
    rcases hc with rfl | hc
    · exact hminus rfl
    · rw [hdigit] at hc
      cases hc
  refine tokens_word ?_ ?_ ?_
  · simp [isBlank, hother]
  · unfold punctuation?
    split <;> first | rfl | exact (hother _ (by decide) (by decide) rfl).elim
  · rw [scanWord.eq_def]
    split
    · next heq => exact (hother 'n' (by decide) (by decide) (List.cons.inj heq).1).elim
    · next heq => exact (hother 't' (by decide) (by decide) (List.cons.inj heq).1).elim
    · next heq => exact (hother 'f' (by decide) (by decide) (List.cons.inj heq).1).elim
    · next heq => exact (hother '"' (by decide) (by decide) (List.cons.inj heq).1).elim
    · rw [hlater]
      rfl

theorem closes_cons {c : Char} {rest : List Char} (hdigit : c.isDigit = false) (hpoint : c ≠ '.')
    (hlower : c ≠ 'e') (hupper : c ≠ 'E') : Closes (c :: rest) := by
  intro d hd
  obtain rfl : c = d := Option.some.inj hd
  exact ⟨hdigit, hpoint, hlower, hupper⟩

theorem closes_nil : Closes [] := nofun

/-! ## Texts -/

/-- A text of a token. Numbers have one alone, that which is written for them. -/
inductive Lexeme : Token → List Char → Prop
  | openBracket : Lexeme .openBracket ['[']
  | closeBracket : Lexeme .closeBracket [']']
  | openBrace : Lexeme .openBrace ['\x7b']
  | closeBrace : Lexeme .closeBrace ['\x7d']
  | colon : Lexeme .colon [':']
  | comma : Lexeme .comma [',']
  | null : Lexeme .null ['n', 'u', 'l', 'l']
  | true : Lexeme (.bool true) ['t', 'r', 'u', 'e']
  | false : Lexeme (.bool false) ['f', 'a', 'l', 's', 'e']
  | number (value : Number) : Lexeme (.number value) value.print.toList
  | string {text : String} {s : List Char} (h : Escaped text.toList s) :
      Lexeme (.string (some text)) ('"' :: (s ++ ['"']))

/-- The text is one of the tokens in order, with blanks wherever there is no token. -/
inductive Renders : List Token → List Char → Prop
  | nil : Renders [] []
  | blank {c : Char} {ts : List Token} {s : List Char}
      (hc : c = ' ' ∨ c = '\t' ∨ c = '\n' ∨ c = '\r') (h : Renders ts s) : Renders ts (c :: s)
  | token {t : Token} {cs : List Char} {ts : List Token} {s : List Char} (ht : Lexeme t cs)
      (h : Renders ts s) : Renders (t :: ts) (cs ++ s)

/-- A value may end in front of these tokens. -/
def EndsValue (ts : List Token) : Prop :=
  ∀ t ∈ ts.head?, t = .comma ∨ t = .closeBracket ∨ t = .closeBrace

/-- Numbers are read back, and end before other tokens start. -/
def Separated : List Token → Prop
  | [] => True
  | .number v :: ts => v.ReadsBack ∧ EndsValue ts ∧ Separated ts
  | _ :: ts => Separated ts

theorem isBlank_iff (c : Char) :
    isBlank c = true ↔ c = ' ' ∨ c = '\t' ∨ c = '\n' ∨ c = '\r' := by
  simp [isBlank, or_assoc]

theorem Renders.closes {ts : List Token} {s : List Char} (h : Renders ts s) (hts : EndsValue ts) :
    Closes s := by
  cases h with
  | nil => exact closes_nil
  | blank hc _ =>
    rcases hc with rfl | rfl | rfl | rfl <;>
      exact closes_cons (by decide) (by decide) (by decide) (by decide)
  | token ht _ =>
    rcases hts _ rfl with rfl | rfl | rfl <;> cases ht <;>
      exact closes_cons (by decide) (by decide) (by decide) (by decide)

theorem Separated.tail {t : Token} {ts : List Token} (h : Separated (t :: ts)) : Separated ts := by
  cases t with
  | number v => exact h.2.2
  | _ => exact h

/-- The text of tokens is cut into these tokens. -/
theorem tokens_of_renders {ts : List Token} {s : List Char} (h : Renders ts s)
    (hts : Separated ts) : tokens s = ts := by
  induction h with
  | nil => exact tokens_nil
  | blank hc _ ih => rw [tokens_blank ((isBlank_iff _).2 hc), ih hts]
  | @token t cs ts s ht h ih =>
    have hrest := ih hts.tail
    cases ht with
    | number v => rw [tokens_number hts.1 (h.closes hts.2.1), hrest]
    | string htext =>
      rw [List.cons_append, List.append_assoc]
      exact (tokens_string htext s).trans (congrArg _ hrest)
    | null | true | false =>
      exact (tokens_word (by decide) (by decide) rfl).trans (congrArg _ hrest)
    | _ => exact (tokens_punctuation rfl s).trans (congrArg _ hrest)

end TreeWasm.Json
