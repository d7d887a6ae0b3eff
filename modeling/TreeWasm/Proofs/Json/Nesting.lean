-- SUMMARY: How deep arrays and objects nest, in a JSON value and in its text.
import TreeWasm.Proofs.Json.Printing

/-!
# Nesting

`Json.depth` counts the arrays and objects of a value that stand one inside the other. `nesting`
counts in a text how many of them are open at once, by its brackets and braces alone. For a text of
the tokens of a value both are the same (`nesting_of_renders`).
-/

namespace TreeWasm.Json

mutual

/-- The most arrays and objects of the value that stand one inside the other. -/
def depth : Json → Nat
  | .null | .bool _ | .number _ | .string _ | .broken => 0
  | .array elements => elementsDepth elements + 1
  | .object members => membersDepth members + 1

def elementsDepth : List Json → Nat
  | [] => 0
  | v :: vs => max v.depth (elementsDepth vs)

def membersDepth : List (Key × Json) → Nat
  | [] => 0
  | (_, v) :: members => max v.depth (membersDepth members)

end

/-- The most arrays and objects that are open at once along the tokens, with `depth` of them open at
the start. -/
def nestingFrom (depth : Nat) : List Token → Nat
  | [] => depth
  | .openBracket :: ts | .openBrace :: ts => nestingFrom (depth + 1) ts
  | .closeBracket :: ts | .closeBrace :: ts => max depth (nestingFrom (depth - 1) ts)
  | _ :: ts => nestingFrom depth ts

/-- The most arrays and objects that are open at once in the text. -/
def nesting (text : String) : Nat := nestingFrom 0 (tokens text.toList)

theorem le_nestingFrom (d : Nat) (ts : List Token) : d ≤ nestingFrom d ts := by
  induction ts generalizing d with
  | nil => exact Nat.le_refl d
  | cons t ts ih =>
    cases t with
    | openBracket | openBrace => exact Nat.le_of_succ_le (ih (d + 1))
    | closeBracket | closeBrace => exact Nat.le_max_left _ _
    | _ => exact ih d

theorem nestingFrom_key (key : Key) (d : Nat) (ts : List Token) :
    nestingFrom d (key.spelling :: .colon :: ts) = nestingFrom d ts := by
  cases key <;> rfl

mutual

theorem nestingFrom_spelling (ts : List Token) :
    ∀ (v : Json) (d : Nat), nestingFrom d (v.spelling ++ ts) = max (d + v.depth) (nestingFrom d ts)
  | .null, d | .bool _, d | .number _, d | .string _, d | .broken, d =>
    (Nat.max_eq_right (le_nestingFrom d ts)).symm
  | .array [], d => rfl
  | .array (v :: vs), d => by
    have hend : nestingFrom (d + 1) (.closeBracket :: ts) = max (d + 1) (nestingFrom d ts) := rfl
    rw [spelling, List.cons_append, List.append_assoc, List.append_assoc, nestingFrom,
      nestingFrom_spelling _ v, nestingFrom_elementsSpelling _ vs, List.singleton_append, hend,
      depth, elementsDepth]
    omega
  | .object [], d => rfl
  | .object ((key, v) :: members), d => by
    have hend : nestingFrom (d + 1) (.closeBrace :: ts) = max (d + 1) (nestingFrom d ts) := rfl
    rw [spelling, List.cons_append, List.cons_append, List.cons_append, List.append_assoc,
      List.append_assoc, nestingFrom, nestingFrom_key, nestingFrom_spelling _ v,
      nestingFrom_membersSpelling _ members, List.singleton_append, hend, depth, membersDepth]
    omega

theorem nestingFrom_elementsSpelling (ts : List Token) :
    ∀ (vs : List Json) (d : Nat),
      nestingFrom d (elementsSpelling vs ++ ts) = max (d + elementsDepth vs) (nestingFrom d ts)
  | [], d => (Nat.max_eq_right (le_nestingFrom d ts)).symm
  | v :: vs, d => by
    rw [elementsSpelling, List.cons_append, List.append_assoc, elementsDepth]
    show nestingFrom d (v.spelling ++ (elementsSpelling vs ++ ts)) = _
    rw [nestingFrom_spelling _ v, nestingFrom_elementsSpelling ts vs]
    omega

theorem nestingFrom_membersSpelling (ts : List Token) :
    ∀ (members : List (Key × Json)) (d : Nat),
      nestingFrom d (membersSpelling members ++ ts) =
        max (d + membersDepth members) (nestingFrom d ts)
  | [], d => (Nat.max_eq_right (le_nestingFrom d ts)).symm
  | (key, v) :: members, d => by
    rw [membersSpelling, List.cons_append, List.cons_append, List.cons_append, List.append_assoc,
      membersDepth]
    show nestingFrom d (key.spelling :: .colon ::
      (v.spelling ++ (membersSpelling members ++ ts))) = _
    rw [nestingFrom_key, nestingFrom_spelling _ v, nestingFrom_membersSpelling ts members]
    omega

end

/-- Any text of the tokens of a value nests as deep as the value. -/
theorem nesting_of_renders {v : Json} (h : v.Plain) {text : String}
    (htext : Renders v.spelling text.toList) : nesting text = v.depth := by
  have hspelling := nestingFrom_spelling [] v 0
  rw [List.append_nil, Nat.zero_add] at hspelling
  rw [nesting, tokens_of_renders_spelling h htext, hspelling]
  exact Nat.max_eq_left (Nat.zero_le _)

theorem nesting_toText {v : Json} (h : v.Plain) : nesting v.toText = v.depth :=
  nesting_of_renders h (renders_toText h)

end TreeWasm.Json
