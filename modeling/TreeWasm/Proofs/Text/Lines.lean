-- SUMMARY: The lines of a text, and that they are those of the listing it was written from.
import TreeWasm.Text.Line

/-!
# Lines of a text

A text that ends in a line feed is cut into its lines by `splitLines`. The text of a listing has the
lines of the listing, each behind its margin, as long as none of them has a line feed inside
(`Line.splitLines_renderAll`). Listings are texts of their own, so two of them with the same text
have the same lines, if these do not start with a space (`Line.renderAll_inj`).
-/

namespace TreeWasm

/-! ## Characters that a text lacks -/

/-- None of the characters occurs in the text. -/
def Lacks (chars : List Char) (s : String) : Prop := ∀ c ∈ s.toList, c ∉ chars

instance (chars : List Char) (s : String) : Decidable (Lacks chars s) :=
  List.decidableBAll _ _

section

variable {chars others : List Char} {s t : String}

theorem Lacks.mono (h : Lacks chars s) (hsub : ∀ c ∈ others, c ∈ chars) : Lacks others s :=
  fun c hc hmem => h c hc (hsub c hmem)

theorem Lacks.append (hs : Lacks chars s) (ht : Lacks chars t) : Lacks chars (s ++ t) := by
  intro c hc
  rw [String.toList_append, List.mem_append] at hc
  exact hc.elim (hs c) (ht c)

theorem Lacks.join {ss : List String} (h : ∀ s ∈ ss, Lacks chars s) :
    Lacks chars (String.join ss) := by
  intro c hc
  rw [String.toList_join, List.mem_flatMap] at hc
  obtain ⟨s, hs, hc⟩ := hc
  exact h s hs c hc

theorem lacks_ofList {cs : List Char} (h : ∀ c ∈ cs, c ∉ chars) :
    Lacks chars (String.ofList cs) := by
  intro c hc
  rw [String.toList_ofList] at hc
  exact h c hc

end

/-- The characters that give a listing its shape. -/
def shaping : List Char := [' ', '\n', '(', ')']

theorem not_mem_shaping_of_isDigit {c : Char} (h : c.isDigit = true) : c ∉ shaping := by
  intro hmem
  have hall : shaping.all (!·.isDigit) = true := by decide
  have hnot := List.all_eq_true.1 hall c hmem
  rw [h] at hnot
  cases hnot

/-! ## Cutting texts -/

/-- The text is empty or starts with the character. -/
def StartsWith (c : Char) (cs : List Char) : Prop := ∀ d ∈ cs.head?, d = c

theorem startsWith_cons (c : Char) (cs : List Char) : StartsWith c (c :: cs) := by
  simp [StartsWith]

/-- Texts are cut where a character occurs first. -/
theorem append_inj_of_startsWith {c : Char} {xs xs' rest rest' : List Char} (hxs : c ∉ xs)
    (hxs' : c ∉ xs') (hrest : StartsWith c rest) (hrest' : StartsWith c rest')
    (h : xs ++ rest = xs' ++ rest') : xs = xs' ∧ rest = rest' := by
  induction xs generalizing xs' with
  | nil =>
    cases xs' with
    | nil => exact ⟨rfl, h⟩
    | cons d xs' =>
      rw [List.nil_append] at h
      rw [h] at hrest
      exact absurd (hrest d rfl).symm (fun heq => hxs' (heq ▸ List.mem_cons_self))
  | cons d xs ih =>
    cases xs' with
    | nil =>
      rw [List.nil_append] at h
      rw [← h] at hrest'
      exact absurd (hrest' d rfl).symm (fun heq => hxs (heq ▸ List.mem_cons_self))
    | cons d' xs' =>
      obtain ⟨rfl, htail⟩ := List.cons.inj h
      rw [List.mem_cons, not_or] at hxs hxs'
      obtain ⟨rfl, hsame⟩ := ih hxs.2 hxs'.2 htail
      exact ⟨rfl, hsame⟩

/-! ## Lines -/

/-- The lines of a text, without their line feeds. -/
def splitLines : List Char → List (List Char)
  | [] => []
  | c :: cs =>
    if c = '\n' then [] :: splitLines cs
    else
      match splitLines cs with
      | [] => [[c]]
      | line :: lines => (c :: line) :: lines

/-- What comes before the first line feed is the first line. -/
theorem splitLines_append {line : List Char} (h : '\n' ∉ line) (cs : List Char) :
    splitLines (line ++ '\n' :: cs) = line :: splitLines cs := by
  induction line with
  | nil => simp [splitLines]
  | cons c line ih =>
    rw [List.mem_cons, not_or] at h
    simp [splitLines, ih h.2, Ne.symm h.1]

/-- The text that lines make up, each of them with a line feed behind it. -/
def joinLines (lines : List (List Char)) : List Char := lines.flatMap (· ++ ['\n'])

namespace Line

variable {lines : List Line}

/-- The characters of a line with its margin. -/
def chars (line : Line) : List Char := List.replicate (2 * line.indent) ' ' ++ line.text.toList

theorem toList_render (line : Line) : line.render.toList = line.chars ++ ['\n'] := by
  simp [render, margin, chars]

theorem toList_renderAll_cons (line : Line) (lines : List Line) :
    (renderAll (line :: lines)).toList = line.chars ++ '\n' :: (renderAll lines).toList := by
  simp [renderAll, toList_render]

theorem toList_renderAll (lines : List Line) :
    (renderAll lines).toList = joinLines (lines.map chars) := by
  simp [renderAll, joinLines, toList_render, List.flatMap_map]

/-- A line feed that is inside of no line ends one. -/
theorem splitLines_renderAll (h : ∀ line ∈ lines, '\n' ∉ line.text.toList) :
    splitLines (renderAll lines).toList = lines.map chars := by
  induction lines with
  | nil => rfl
  | cons line lines ih =>
    have hline : '\n' ∉ line.chars := by simp [chars, h]
    have hlines := ih fun l hl => h l (List.mem_cons_of_mem _ hl)
    rw [toList_renderAll_cons, splitLines_append hline, hlines, List.map_cons]

theorem chars_shift (line : Line) (k : Nat) :
    (line.shift k).chars = List.replicate (2 * k) ' ' ++ line.chars := by
  unfold chars shift
  rw [← List.append_assoc, List.replicate_append_replicate, Nat.mul_add, Nat.add_comm]

/-- The margin and the end of the line can be told from its text. -/
structure Clean (line : Line) : Prop where
  not_mem : '\n' ∉ line.text.toList
  head? : line.text.toList.head? ≠ some ' '

theorem replicate_append_inj {a : α} {m n : Nat} {xs ys : List α} (hx : xs.head? ≠ some a)
    (hy : ys.head? ≠ some a) (h : List.replicate m a ++ xs = List.replicate n a ++ ys) :
    m = n ∧ xs = ys := by
  induction m generalizing n with
  | zero =>
    cases n with
    | zero => exact ⟨rfl, h⟩
    | succ n =>
      rw [List.replicate_zero, List.nil_append] at h
      exact absurd (congrArg List.head? h) hx
  | succ m ih =>
    cases n with
    | zero =>
      rw [List.replicate_zero, List.nil_append] at h
      exact absurd (congrArg List.head? h.symm) hy
    | succ n =>
      obtain ⟨rfl, hrest⟩ := ih (List.cons.inj h).2
      exact ⟨rfl, hrest⟩

theorem chars_inj {line line' : Line} (h : line.Clean) (h' : line'.Clean)
    (hchars : line.chars = line'.chars) : line = line' := by
  obtain ⟨hmargin, htext⟩ := replicate_append_inj h.head? h'.head? hchars
  obtain ⟨indent, text⟩ := line
  obtain ⟨indent', text'⟩ := line'
  obtain rfl : indent = indent' := by
    dsimp only at hmargin
    omega
  exact congrArg (Line.mk indent) (String.toList_inj.1 htext)

/-- A listing can be told from its text. -/
theorem renderAll_inj {lines lines' : List Line} (h : ∀ line ∈ lines, line.Clean)
    (h' : ∀ line ∈ lines', line.Clean) (htext : renderAll lines = renderAll lines') :
    lines = lines' := by
  have hchars : lines.map chars = lines'.map chars := by
    rw [← splitLines_renderAll fun line hl => (h line hl).not_mem,
      ← splitLines_renderAll fun line hl => (h' line hl).not_mem, htext]
  clear htext
  induction lines generalizing lines' with
  | nil => exact (List.map_eq_nil_iff.1 hchars.symm).symm
  | cons line lines ih =>
    obtain ⟨l, ls, rfl, hl, hls⟩ := List.map_eq_cons_iff.1 hchars.symm
    rw [chars_inj (h line List.mem_cons_self) (h' l List.mem_cons_self) hl.symm,
      ih (fun x hx => h x (List.mem_cons_of_mem _ hx))
        (fun x hx => h' x (List.mem_cons_of_mem _ hx)) hls.symm]

end Line

end TreeWasm
