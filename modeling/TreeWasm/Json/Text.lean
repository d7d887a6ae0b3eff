-- SUMMARY: Strings of JSON texts: their escapes read and written.

/-!
# Strings

A string is a quoted sequence of characters and escapes. An escape with four hexadecimal digits
spells a code unit of 16 bits; a character beyond those is spelt by two units, a high and a low
surrogate, one right after the other. A surrogate without its partner spells nothing.

In writing, only quotes, backslashes and control characters are escaped.
-/

namespace TreeWasm.Json

/-- What one character or one escape of a string spells. -/
inductive Piece where
  | char (c : Char)
  | unit (n : Nat)
deriving DecidableEq, Repr, Inhabited

namespace Piece

def isHigh (n : Nat) : Bool := 0xd800 ≤ n && n < 0xdc00

def isLow (n : Nat) : Bool := 0xdc00 ≤ n && n < 0xe000

/-- The text that pieces spell, if there is one. -/
def text : List Piece → Option (List Char)
  | [] => some []
  | .char c :: ps => (c :: ·) <$> text ps
  | .unit n :: ps =>
    if isHigh n then
      match ps with
      | .unit low :: ps =>
        if isLow low then
          (Char.ofNat (0x10000 + (n - 0xd800) * 0x400 + (low - 0xdc00)) :: ·) <$> text ps
        else none
      | _ => none
    else if isLow n then none
    else (Char.ofNat n :: ·) <$> text ps

end Piece

/-! ## Reading -/

def hexValue? (c : Char) : Option Nat :=
  if c.isDigit then some (c.toNat - '0'.toNat)
  else if 'a' ≤ c ∧ c ≤ 'f' then some (c.toNat - 'a'.toNat + 10)
  else if 'A' ≤ c ∧ c ≤ 'F' then some (c.toNat - 'A'.toNat + 10)
  else none

def hexNumber? (digits : List Char) : Option Nat :=
  digits.foldlM (fun n c => (16 * n + ·) <$> hexValue? c) 0

/-- The character that a backslash and a letter stand for. -/
def shortEscape? : Char → Option Char
  | '"' => some '"'
  | '\\' => some '\\'
  | '/' => some '/'
  | 'b' => some '\x08'
  | 'f' => some '\x0c'
  | 'n' => some '\n'
  | 'r' => some '\r'
  | 't' => some '\t'
  | _ => none

/-- The pieces up to the closing quote, and the text behind it. There are none where the quote is
missing, an escape is not one, or a control character stands in between. -/
def scanPieces : List Char → Option (List Piece × List Char)
  | [] => none
  | '"' :: rest => some ([], rest)
  | '\\' :: 'u' :: a :: b :: c :: d :: rest => do
    let n ← hexNumber? [a, b, c, d]
    let (pieces, rest) ← scanPieces rest
    return (.unit n :: pieces, rest)
  | '\\' :: e :: rest => do
    let c ← shortEscape? e
    let (pieces, rest) ← scanPieces rest
    return (.char c :: pieces, rest)
  | c :: rest =>
    if c.toNat < 0x20 ∨ c = '\\' then none
    else do
      let (pieces, rest) ← scanPieces rest
      return (.char c :: pieces, rest)

/-- The string behind an opening quote: its text, if it spells one, and what follows it. -/
def scanString (s : List Char) : Option (Option String × List Char) :=
  (scanPieces s).map fun (pieces, rest) => ((Piece.text pieces).map String.ofList, rest)

theorem length_scanPieces {s t : List Char} {ps : List Piece} (h : scanPieces s = some (ps, t)) :
    t.length < s.length := by
  fun_induction scanPieces s generalizing ps t with
  | case1 => simp at h
  | case2 rest => simp_all
  | case3 a b c d rest ih =>
    simp only [Option.bind_eq_bind, Option.bind_eq_some_iff, Prod.exists] at h
    obtain ⟨_, _, qs, t', h', e⟩ := h
    obtain ⟨_, rfl⟩ : _ ∧ t' = t := by simpa using e
    have := ih h'
    simp only [List.length_cons]
    omega
  | case4 e rest _ ih =>
    simp only [Option.bind_eq_bind, Option.bind_eq_some_iff, Prod.exists] at h
    obtain ⟨_, _, qs, t', h', e⟩ := h
    obtain ⟨_, rfl⟩ : _ ∧ t' = t := by simpa using e
    have := ih h'
    simp only [List.length_cons]
    omega
  | case5 => simp at h
  | case6 c rest _ _ _ _ ih =>
    simp only [Option.bind_eq_bind, Option.bind_eq_some_iff, Prod.exists] at h
    obtain ⟨qs, t', h', e⟩ := h
    obtain ⟨_, rfl⟩ : _ ∧ t' = t := by simpa using e
    have := ih h'
    simp only [List.length_cons]
    omega

theorem length_scanString {s t : List Char} {text : Option String}
    (h : scanString s = some (text, t)) : t.length < s.length := by
  simp only [scanString, Option.map_eq_some_iff, Prod.mk.injEq, Prod.exists] at h
  obtain ⟨_, _, h, _, rfl⟩ := h
  exact length_scanPieces h

/-! ## Writing -/

/-- A digit of base sixteen in lower case. -/
def hexDigit (n : Nat) : Char :=
  if n < 10 then .ofNat ('0'.toNat + n) else .ofNat ('a'.toNat + n - 10)

/-- A character inside a string. -/
def escapeChar (c : Char) : List Char :=
  if c = '"' then ['\\', '"']
  else if c = '\\' then ['\\', '\\']
  else if c = '\x08' then ['\\', 'b']
  else if c = '\t' then ['\\', 't']
  else if c = '\n' then ['\\', 'n']
  else if c = '\x0c' then ['\\', 'f']
  else if c = '\r' then ['\\', 'r']
  else if c.toNat < 0x20 then
    ['\\', 'u', '0', '0', hexDigit (c.toNat / 16), hexDigit (c.toNat % 16)]
  else [c]

/-- A text as a string. -/
def quote (text : String) : String :=
  String.ofList ('"' :: text.toList.flatMap escapeChar ++ ['"'])

end TreeWasm.Json
