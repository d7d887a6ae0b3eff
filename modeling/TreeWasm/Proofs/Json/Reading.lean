-- SUMMARY: A JSON value that was written is read back, and nothing is left of its text.
import TreeWasm.Json.Reading
import TreeWasm.Proofs.Json.Printing

/-!
# Values read back

The reader takes the tokens of a value as the value, whatever containers are open around it
(`run_spelling`). So a text of these tokens, such as the one that is written for the value, holds
the value and nothing else (`ofText_of_renders`).
-/

namespace TreeWasm.Json

theorem run_cons_of_ok {s s' : State} {t : Token} (h : s.take t = .ok s') (ts : List Token) :
    s.run (t :: ts) = s'.run ts := by
  have hexpecting : s.expecting ≠ .finish := by
    intro hfinish
    unfold State.take at h
    rw [hfinish] at h
    cases h
  rw [State.run, if_neg hexpecting, h]

/-- The value starts with a token, and this token does not close an array. -/
theorem exists_cons_spelling {v : Json} (h : v.Plain) :
    ∃ t ts, v.spelling = t :: ts ∧ t ≠ .closeBracket := by
  cases v with
  | null | bool | number | string => exact ⟨_, _, rfl, nofun⟩
  | array elements =>
    cases elements with
    | nil => exact ⟨_, _, rfl, nofun⟩
    | cons v vs => exact ⟨_, _, rfl, nofun⟩
  | object members =>
    cases members with
    | nil => exact ⟨_, _, rfl, nofun⟩
    | cons member members => exact ⟨_, _, rfl, nofun⟩
  | broken => exact h.elim

/-- Where an array may end, a value is taken like anywhere else. -/
theorem run_element {v : Json} (h : v.Plain) (stack : List Open) (ts : List Token) :
    State.run ⟨stack, .element, .broken⟩ (v.spelling ++ ts) =
      State.run ⟨stack, .value, .broken⟩ (v.spelling ++ ts) := by
  obtain ⟨t, rest, hspelling, ht⟩ := exists_cons_spelling h
  have htake : State.take ⟨stack, .element, .broken⟩ t = State.take ⟨stack, .value, .broken⟩ t := by
    cases t with
    | closeBracket => exact (ht rfl).elim
    | _ => rfl
  rw [hspelling, List.cons_append, State.run, State.run, htake]
  rfl

mutual

/-- The tokens of a value are taken as the value. -/
theorem run_spelling : ∀ v : Json, v.Plain → ∀ (stack : List Open) (ts : List Token),
    State.run ⟨stack, .value, .broken⟩ (v.spelling ++ ts) = (deliver v stack).run ts
  | .null, _, _, _ | .bool _, _, _, _ | .number _, _, _, _ | .string _, _, _, _ =>
    run_cons_of_ok rfl _
  | .array [], _, _, _ => (run_cons_of_ok rfl _).trans (run_cons_of_ok rfl _)
  | .array (v :: vs), h, stack, ts => by
    rw [spelling, List.cons_append, List.append_assoc, List.append_assoc]
    refine (run_cons_of_ok rfl _).trans ?_
    rw [run_element h.1, run_spelling v h.1]
    exact run_elementsSpelling vs h.2 [v] stack ts
  | .object [], _, _, _ => (run_cons_of_ok rfl _).trans (run_cons_of_ok rfl _)
  | .object ((key, v) :: members), h, stack, ts => by
    obtain ⟨name, rfl⟩ := h.1
    rw [spelling, List.cons_append, List.cons_append, List.cons_append, List.append_assoc,
      List.append_assoc]
    refine (run_cons_of_ok rfl _).trans (Eq.trans (run_cons_of_ok rfl _) ?_)
    refine (run_cons_of_ok rfl _).trans ?_
    rw [run_spelling v h.2.1]
    exact run_membersSpelling members h.2.2 [(.text name, v)] stack ts
  | .broken, h, _, _ => h.elim

/-- The elements behind those that an array already has complete it. -/
theorem run_elementsSpelling : ∀ vs : List Json, AllPlain vs →
    ∀ (before : List Json) (stack : List Open) (ts : List Token),
      State.run ⟨.array before :: stack, .next, .broken⟩
          (elementsSpelling vs ++ ([.closeBracket] ++ ts)) =
        (deliver (.array (before.reverse ++ vs)) stack).run ts
  | [], _, before, stack, ts => by
    rw [List.append_nil]
    exact run_cons_of_ok rfl ts
  | v :: vs, h, before, stack, ts => by
    rw [elementsSpelling, List.cons_append, List.append_assoc]
    refine (run_cons_of_ok rfl _).trans ?_
    rw [run_spelling v h.1]
    have hrest := run_elementsSpelling vs h.2 (v :: before) stack ts
    rwa [List.reverse_cons, List.append_assoc] at hrest

/-- The members behind those that an object already has complete it. -/
theorem run_membersSpelling : ∀ members : List (Key × Json), MembersPlain members →
    ∀ (before : List (Key × Json)) (stack : List Open) (ts : List Token),
      State.run ⟨.object before :: stack, .next, .broken⟩
          (membersSpelling members ++ ([.closeBrace] ++ ts)) =
        (deliver (.object (before.reverse ++ members)) stack).run ts
  | [], _, before, stack, ts => by
    rw [List.append_nil]
    exact run_cons_of_ok rfl ts
  | (key, v) :: members, h, before, stack, ts => by
    obtain ⟨name, rfl⟩ := h.1
    rw [membersSpelling, List.cons_append, List.cons_append, List.cons_append, List.append_assoc]
    refine (run_cons_of_ok rfl _).trans (Eq.trans (run_cons_of_ok rfl _) ?_)
    refine (run_cons_of_ok rfl _).trans ?_
    rw [run_spelling v h.2.1]
    have hrest := run_membersSpelling members h.2.2 ((.text name, v) :: before) stack ts
    rwa [List.reverse_cons, List.append_assoc] at hrest

end

/-- Any text of the tokens of a value holds the value and nothing else. -/
theorem ofText_of_renders {v : Json} (h : v.Plain) {text : String}
    (htext : Renders v.spelling text.toList) : ofText text = ⟨v, true⟩ := by
  have hrun := run_spelling v h [] []
  rw [List.append_nil] at hrun
  unfold ofText
  rw [tokens_of_renders_spelling h htext]
  exact hrun

/-- The text that is written for a value is read as the value. -/
theorem ofText_toText {v : Json} (h : v.Plain) : ofText v.toText = ⟨v, true⟩ :=
  ofText_of_renders h (renders_toText h)

end TreeWasm.Json
