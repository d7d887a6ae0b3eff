-- SUMMARY: Tokens of JSON texts.
import TreeWasm.Json.Number
import TreeWasm.Json.Text

/-!
# Tokens

`tokens` cuts a text into tokens and drops the blanks between them. Where no token fits, the list
ends in `bad`, whatever follows in the text.
-/

namespace TreeWasm.Json

inductive Token where
  | openBracket
  | closeBracket
  | openBrace
  | closeBrace
  | colon
  | comma
  | null
  | bool (value : Bool)
  | number (value : Number)
  | string (text : Option String)
  | bad
deriving DecidableEq, Repr, Inhabited

def isBlank (c : Char) : Bool := c = ' ' || c = '\t' || c = '\n' || c = '\r'

/-- The token of a single character. -/
def punctuation? : Char → Option Token
  | '[' => some .openBracket
  | ']' => some .closeBracket
  | '\x7b' => some .openBrace
  | '\x7d' => some .closeBrace
  | ':' => some .colon
  | ',' => some .comma
  | _ => none

/-- A literal name, a string or a numeral at the front of a text. -/
def scanWord : List Char → Option (Token × List Char)
  | 'n' :: 'u' :: 'l' :: 'l' :: rest => some (.null, rest)
  | 't' :: 'r' :: 'u' :: 'e' :: rest => some (.bool true, rest)
  | 'f' :: 'a' :: 'l' :: 's' :: 'e' :: rest => some (.bool false, rest)
  | '"' :: rest => (scanString rest).map fun (text, rest) => (.string text, rest)
  | s => (Numeral.scan s).map fun (n, rest) => (.number n.value, rest)

theorem length_scanWord {s t : List Char} {w : Token} (h : scanWord s = some (w, t)) :
    t.length < s.length := by
  unfold scanWord at h
  split at h
  · simp only [Option.some.injEq, Prod.mk.injEq] at h
    simp only [List.length_cons, ← h.2]
    omega
  · simp only [Option.some.injEq, Prod.mk.injEq] at h
    simp only [List.length_cons, ← h.2]
    omega
  · simp only [Option.some.injEq, Prod.mk.injEq] at h
    simp only [List.length_cons, ← h.2]
    omega
  · simp only [Option.map_eq_some_iff, Prod.mk.injEq, Prod.exists] at h
    obtain ⟨_, _, h, _, rfl⟩ := h
    have := length_scanString h
    simp only [List.length_cons]
    omega
  · simp only [Option.map_eq_some_iff, Prod.mk.injEq, Prod.exists] at h
    obtain ⟨_, _, h, _, rfl⟩ := h
    exact Numeral.length_scan h

/-- The tokens of a text. -/
def tokens (s : List Char) : List Token :=
  match s with
  | [] => []
  | c :: rest =>
    if isBlank c then tokens rest
    else
      match punctuation? c with
      | some t => t :: tokens rest
      | none =>
        match h : scanWord (c :: rest) with
        | some (w, rest') =>
          have := length_scanWord h
          w :: tokens rest'
        | none => [.bad]
termination_by s.length
decreasing_by all_goals simp only [List.length_cons] at *; omega

end TreeWasm.Json
