-- SUMMARY: The tokens of a JSON value, and the text that is written for it as a text of these tokens.
import TreeWasm.Proofs.Json.Rendering

/-!
# Tokens of written values

A value spells a list of tokens (`Json.spelling`), and the text that is written for it is one of
these tokens (`renders_toText`). Line feeds and margins are blanks, and a number stands in front of
a comma, a bracket, a brace or the end, whatever the text.
-/

namespace TreeWasm.Json

/-! ## Tokens of a value -/

mutual

/-- The value has a text from which it can be read back: numbers are, strings and keys spell a text,
and nothing is broken off. -/
def Plain : Json → Prop
  | .null | .bool _ => True
  | .number v => v.ReadsBack
  | .string text => text.isSome
  | .array elements => AllPlain elements
  | .object members => MembersPlain members
  | .broken => False

def AllPlain : List Json → Prop
  | [] => True
  | v :: vs => v.Plain ∧ AllPlain vs

def MembersPlain : List (Key × Json) → Prop
  | [] => True
  | (key, v) :: members => (∃ name, key = .text name) ∧ v.Plain ∧ MembersPlain members

end

/-- The string that a key is written as. -/
def Key.spelling : Key → Token
  | .text name => .string (some name)
  | .unreadable => .string none
  | .absent => .bad

mutual

/-- The tokens of a value. -/
def spelling : Json → List Token
  | .null => [.null]
  | .bool b => [.bool b]
  | .number v => [.number v]
  | .string text => [.string text]
  | .array [] => [.openBracket, .closeBracket]
  | .array (v :: vs) => .openBracket :: (spelling v ++ (elementsSpelling vs ++ [.closeBracket]))
  | .object [] => [.openBrace, .closeBrace]
  | .object ((key, v) :: members) =>
    .openBrace :: key.spelling :: .colon ::
      (spelling v ++ (membersSpelling members ++ [.closeBrace]))
  | .broken => []

/-- The tokens of the elements of an array after the first. -/
def elementsSpelling : List Json → List Token
  | [] => []
  | v :: vs => .comma :: (spelling v ++ elementsSpelling vs)

/-- The tokens of the members of an object after the first. -/
def membersSpelling : List (Key × Json) → List Token
  | [] => []
  | (key, v) :: members =>
    .comma :: key.spelling :: .colon :: (spelling v ++ membersSpelling members)

end

/-! ## Separation -/

theorem endsValue_elementsSpelling (vs : List Json) {ts : List Token} (h : EndsValue ts) :
    EndsValue (elementsSpelling vs ++ ts) := by
  cases vs with
  | nil => exact h
  | cons v vs =>
    rintro t ⟨⟩
    exact .inl rfl

theorem endsValue_membersSpelling (members : List (Key × Json)) {ts : List Token}
    (h : EndsValue ts) : EndsValue (membersSpelling members ++ ts) := by
  cases members with
  | nil => exact h
  | cons member members =>
    rintro t ⟨⟩
    exact .inl rfl

theorem endsValue_closeBracket (ts : List Token) : EndsValue (.closeBracket :: ts) := by
  rintro t ⟨⟩
  exact .inr (.inl rfl)

theorem endsValue_closeBrace (ts : List Token) : EndsValue (.closeBrace :: ts) := by
  rintro t ⟨⟩
  exact .inr (.inr rfl)

theorem separated_key (key : Key) {ts : List Token} (h : Separated ts) :
    Separated (key.spelling :: .colon :: ts) := by
  cases key <;> exact h

mutual

/-- In the tokens of a value no number stands in front of another one. -/
theorem separated_spelling {ts : List Token} (hend : EndsValue ts) (hts : Separated ts) :
    ∀ v : Json, v.Plain → Separated (v.spelling ++ ts)
  | .null, _ | .bool _, _ | .string _, _ => hts
  | .number _, h => ⟨h, hend, hts⟩
  | .array [], _ => hts
  | .array (v :: vs), h => by
    have hclose := endsValue_closeBracket ts
    have hrest := separated_elementsSpelling hclose hts vs h.2
    have hv := separated_spelling (endsValue_elementsSpelling vs hclose) hrest v h.1
    simpa [spelling, Separated] using hv
  | .object [], _ => hts
  | .object ((key, v) :: members), h => by
    have hclose := endsValue_closeBrace ts
    have hrest := separated_membersSpelling hclose hts members h.2.2
    have hv := separated_spelling (endsValue_membersSpelling members hclose) hrest v h.2.1
    have hkey := separated_key key hv
    simpa [spelling, Separated] using hkey
  | .broken, h => h.elim

theorem separated_elementsSpelling {ts : List Token} (hend : EndsValue ts) (hts : Separated ts) :
    ∀ vs : List Json, AllPlain vs → Separated (elementsSpelling vs ++ ts)
  | [], _ => hts
  | v :: vs, h => by
    have hrest := separated_elementsSpelling hend hts vs h.2
    have hv := separated_spelling (endsValue_elementsSpelling vs hend) hrest v h.1
    simpa [elementsSpelling, Separated] using hv

theorem separated_membersSpelling {ts : List Token} (hend : EndsValue ts) (hts : Separated ts) :
    ∀ members : List (Key × Json), MembersPlain members → Separated (membersSpelling members ++ ts)
  | [], _ => hts
  | (key, v) :: members, h => by
    have hrest := separated_membersSpelling hend hts members h.2.2
    have hv := separated_spelling (endsValue_membersSpelling members hend) hrest v h.2.1
    have hkey := separated_key key hv
    simpa [membersSpelling, Separated] using hkey

end

/-- Whatever text of the tokens of a value is taken, it is cut into these tokens. -/
theorem tokens_of_renders_spelling {v : Json} (h : v.Plain) {s : List Char}
    (hs : Renders v.spelling s) : tokens s = v.spelling := by
  have hend : EndsValue [] := nofun
  have hseparated := separated_spelling hend trivial v h
  rw [List.append_nil] at hseparated
  exact tokens_of_renders hs hseparated

/-! ## Written values -/

theorem toList_newLine (n : Nat) : (newLine n).toList = '\n' :: List.replicate (2 * n) ' ' := by
  simp [newLine, Line.margin]

theorem renders_newLine (n : Nat) {ts : List Token} {s : List Char} (h : Renders ts s) :
    Renders ts ((newLine n).toList ++ s) := by
  rw [toList_newLine, List.cons_append]
  refine .blank (by simp) ?_
  induction 2 * n with
  | zero => exact h
  | succ k ih => exact .blank (by simp) ih

theorem lexeme_quote (text : String) : Lexeme (.string (some text)) (quote text).toList := by
  have htext : (quote text).toList = '"' :: (text.toList.flatMap escapeChar ++ ['"']) := by
    simp [quote]
  rw [htext]
  exact .string (escaped_escapeChars text.toList)

theorem renders_key {key : Key} (h : ∃ name, key = .text name) {ts : List Token} {s : List Char}
    (hs : Renders ts s) :
    Renders (key.spelling :: .colon :: ts) (key.print.toList ++ ':' :: ' ' :: s) := by
  obtain ⟨name, rfl⟩ := h
  exact .token (lexeme_quote name) (.token .colon (.blank (by simp) hs))

mutual

/-- The text of a value is one of the tokens of the value. -/
theorem renders_print (n : Nat) {ts : List Token} {s : List Char} (hs : Renders ts s) :
    ∀ v : Json, v.Plain → Renders (v.spelling ++ ts) ((v.print n).toList ++ s)
  | .null, _ => by
    rw [print, spelling]
    exact .token .null hs
  | .bool true, _ => by
    rw [print, spelling]
    exact .token .true hs
  | .bool false, _ => by
    rw [print, spelling]
    exact .token .false hs
  | .number v, _ => .token (.number v) hs
  | .string none, h => by cases h
  | .string (some text), _ => .token (lexeme_quote text) hs
  | .array [], _ => by
    rw [print, spelling]
    show Renders _ (['['] ++ ([']'] ++ s))
    exact .token .openBracket (.token .closeBracket hs)
  | .array (v :: vs), h => by
    have htext : (print n (.array (v :: vs))).toList ++ s =
        '[' :: ((newLine (n + 1)).toList ++ ((print (n + 1) v).toList ++
          ((printElements (n + 1) vs).toList ++ ((newLine n).toList ++ ']' :: s)))) := by
      simp [print]
    have hend := renders_newLine n (.token .closeBracket hs)
    have hrest := renders_printElements (n + 1) hend vs h.2
    have hv := renders_newLine (n + 1) (renders_print (n + 1) hrest v h.1)
    rw [htext, spelling, List.cons_append, List.append_assoc, List.append_assoc]
    exact .token .openBracket hv
  | .object [], _ => by
    rw [print, spelling]
    show Renders _ (['\x7b'] ++ (['\x7d'] ++ s))
    exact .token .openBrace (.token .closeBrace hs)
  | .object ((key, v) :: members), h => by
    have htext : (print n (.object ((key, v) :: members))).toList ++ s =
        '\x7b' :: ((newLine (n + 1)).toList ++ (key.print.toList ++ ':' :: ' ' ::
          ((print (n + 1) v).toList ++ ((printMembers (n + 1) members).toList ++
            ((newLine n).toList ++ '\x7d' :: s))))) := by
      simp [print]
    have hend := renders_newLine n (.token .closeBrace hs)
    have hrest := renders_printMembers (n + 1) hend members h.2.2
    have hv := renders_newLine (n + 1) (renders_key h.1 (renders_print (n + 1) hrest v h.2.1))
    rw [htext, spelling, List.cons_append, List.cons_append, List.cons_append, List.append_assoc,
      List.append_assoc]
    exact .token .openBrace hv
  | .broken, h => h.elim

theorem renders_printElements (n : Nat) {ts : List Token} {s : List Char} (hs : Renders ts s) :
    ∀ vs : List Json, AllPlain vs →
      Renders (elementsSpelling vs ++ ts) ((printElements n vs).toList ++ s)
  | [], _ => hs
  | v :: vs, h => by
    have htext : (printElements n (v :: vs)).toList ++ s =
        ',' :: ((newLine n).toList ++ ((print n v).toList ++
          ((printElements n vs).toList ++ s))) := by
      simp [printElements]
    have hrest := renders_printElements n hs vs h.2
    have hv := renders_newLine n (renders_print n hrest v h.1)
    rw [htext, elementsSpelling, List.cons_append, List.append_assoc]
    exact .token .comma hv

theorem renders_printMembers (n : Nat) {ts : List Token} {s : List Char} (hs : Renders ts s) :
    ∀ members : List (Key × Json), MembersPlain members →
      Renders (membersSpelling members ++ ts) ((printMembers n members).toList ++ s)
  | [], _ => hs
  | (key, v) :: members, h => by
    have htext : (printMembers n ((key, v) :: members)).toList ++ s =
        ',' :: ((newLine n).toList ++ (key.print.toList ++ ':' :: ' ' ::
          ((print n v).toList ++ ((printMembers n members).toList ++ s)))) := by
      simp [printMembers]
    have hrest := renders_printMembers n hs members h.2.2
    have hv := renders_newLine n (renders_key h.1 (renders_print n hrest v h.2.1))
    rw [htext, membersSpelling, List.cons_append, List.cons_append, List.cons_append,
      List.append_assoc]
    exact .token .comma hv

end

theorem renders_toText {v : Json} (h : v.Plain) : Renders v.spelling v.toText.toList := by
  have hprint := renders_print 0 .nil v h
  rwa [List.append_nil, List.append_nil] at hprint

end TreeWasm.Json
