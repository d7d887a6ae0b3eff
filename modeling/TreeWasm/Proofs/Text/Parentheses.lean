-- SUMMARY: Balanced texts, and listings whose indentation follows their parentheses.
import TreeWasm.Proofs.Text.Lines

/-!
# Parentheses

The depth of a text is how many parentheses it leaves open, closed ones counting against it. A
balanced text leaves none open and never closes one that it has not opened (`Balanced.depth_eq`,
`Balanced.depth_nonneg`). A listing is nested if it consists of lines that close what they open and
of groups: a line that opens a parenthesis, a nested listing one level further in, and a line that
closes the parenthesis (`Nested`). Then its text is balanced, and the margin of every line is the
depth in front of it (`Nested.balanced`, `Nested.indented`).
-/

namespace TreeWasm

/-! ## Depth -/

/-- The number of parentheses that are left open. -/
def depth (cs : List Char) : Int := cs.count '(' - cs.count ')'

@[simp] theorem depth_nil : depth [] = 0 := rfl

@[simp] theorem depth_append (xs ys : List Char) : depth (xs ++ ys) = depth xs + depth ys := by
  simp only [depth, List.count_append]
  omega

@[simp] theorem depth_cons_open (cs : List Char) : depth ('(' :: cs) = 1 + depth cs := by
  simp [depth]
  omega

@[simp] theorem depth_cons_close (cs : List Char) : depth (')' :: cs) = depth cs - 1 := by
  simp [depth]
  omega

theorem depth_cons_of_ne {c : Char} (hopen : c ≠ '(') (hclose : c ≠ ')') (cs : List Char) :
    depth (c :: cs) = depth cs := by
  simp [depth, hopen, hclose]

/-! ## Balanced texts -/

/-- Every parenthesis is closed behind the place where it is opened. -/
inductive Balanced : List Char → Prop
  | nil : Balanced []
  | cons {c : Char} {cs : List Char} (hopen : c ≠ '(') (hclose : c ≠ ')') :
    Balanced cs → Balanced (c :: cs)
  | group {xs ys : List Char} : Balanced xs → Balanced ys → Balanced ('(' :: (xs ++ ')' :: ys))

namespace Balanced

variable {xs ys : List Char} {s t : String}

theorem append (hx : Balanced xs) (hy : Balanced ys) : Balanced (xs ++ ys) := by
  induction hx with
  | nil => exact hy
  | cons hopen hclose _ ih => exact .cons hopen hclose ih
  | group hx _ _ ih =>
    rw [List.cons_append, List.append_assoc, List.cons_append]
    exact .group hx ih

theorem of_not_mem (h : ∀ c ∈ xs, c ≠ '(' ∧ c ≠ ')') : Balanced xs := by
  induction xs with
  | nil => exact .nil
  | cons c cs ih =>
    obtain ⟨hopen, hclose⟩ := h c List.mem_cons_self
    exact .cons hopen hclose (ih fun c hc => h c (List.mem_cons_of_mem _ hc))

/-- As many parentheses are closed as are opened. -/
theorem depth_eq (h : Balanced xs) : depth xs = 0 := by
  induction h with
  | nil => rfl
  | cons hopen hclose _ ih => rw [depth_cons_of_ne hopen hclose, ih]
  | group _ _ ihx ihy =>
    rw [depth_cons_open, depth_append, depth_cons_close, ihx, ihy]
    rfl

/-- At no point more parentheses are closed than are opened. -/
theorem depth_nonneg (h : Balanced xs) {p q : List Char} (hp : p ++ q = xs) : 0 ≤ depth p := by
  induction h generalizing p q with
  | nil =>
    obtain ⟨rfl, -⟩ := List.append_eq_nil_iff.1 hp
    exact Int.le_refl 0
  | cons hopen hclose _ ih =>
    obtain _ | ⟨c, p⟩ := p
    · exact Int.le_refl 0
    · obtain ⟨rfl, htail⟩ := List.cons.inj hp
      rw [depth_cons_of_ne hopen hclose]
      exact ih htail
  | @group xs ys hx _ ihx ihy =>
    obtain _ | ⟨c, p⟩ := p
    · exact Int.le_refl 0
    obtain ⟨rfl, htail⟩ := List.cons.inj hp
    rw [depth_cons_open]
    obtain ⟨between, hxs, -⟩ | ⟨behind, rfl, hbehind⟩ := List.append_eq_append_iff.1 htail
    · have := ihx hxs.symm
      omega
    · rw [depth_append, hx.depth_eq]
      obtain _ | ⟨c, behind⟩ := behind
      · decide
      · obtain ⟨rfl, hys⟩ := List.cons.inj hbehind
        have := ihy hys.symm
        rw [depth_cons_close]
        omega

end Balanced

/-! ## Texts in lines -/

/-- The characters that a name in a line must not have. -/
def nesting : List Char := ['(', ')', '\n']

theorem Lacks.of_shaping {s : String} (h : Lacks shaping s) : Lacks nesting s :=
  h.mono (by simp [nesting, shaping])

/-- The text is balanced and may stand in a line. -/
structure Inside (s : String) : Prop where
  balanced : Balanced s.toList
  not_mem : '\n' ∉ s.toList

namespace Inside

variable {s t : String}

theorem of_lacks (h : Lacks nesting s) : Inside s where
  balanced := by
    refine .of_not_mem fun c hc => ?_
    have hnot := h c hc
    simp only [nesting, List.mem_cons, not_or] at hnot
    exact ⟨hnot.1, hnot.2.1⟩
  not_mem hmem := h _ hmem (by decide)

theorem of_lacks_shaping (h : Lacks shaping s) : Inside s := of_lacks h.of_shaping

theorem append (hs : Inside s) (ht : Inside t) : Inside (s ++ t) where
  balanced := by
    rw [String.toList_append]
    exact hs.balanced.append ht.balanced
  not_mem := by simp [hs.not_mem, ht.not_mem]

/-- A balanced text in parentheses is balanced. -/
theorem parens (h : Inside s) : Inside ("(" ++ s ++ ")") where
  balanced := by simpa using Balanced.group h.balanced .nil
  not_mem := by simp [h.not_mem]

end Inside

/-! ## Nested listings -/

/-- A listing of lines that close what they open and of groups, each at its level. -/
inductive Nested : Nat → List Line → Prop
  | nil {n : Nat} : Nested n []
  | form {n : Nat} {text body : String} {lines : List Line} : text = "(" ++ body ++ ")" →
    Inside body → Nested n lines → Nested n (⟨n, text⟩ :: lines)
  | group {n : Nat} {text head : String} {inner lines : List Line} : text = "(" ++ head →
    Inside head → Nested (n + 1) inner → Nested n lines →
      Nested n (⟨n, text⟩ :: (inner ++ ⟨n, ")"⟩ :: lines))

/-- The margin of a line is the depth in front of it, less what the line begins with closing. -/
def Line.FitsAt (line : Line) (d : Int) : Prop :=
  ∃ rest, line.text.toList = '(' :: rest ∧ (line.indent : Int) = d ∨
    line.text.toList = ')' :: rest ∧ (line.indent : Int) + 1 = d

/-- The margin of every line is the depth in front of it, given the depth in front of all lines. -/
def Indented : Int → List Line → Prop
  | _, [] => True
  | d, line :: lines => line.FitsAt d ∧ Indented (d + depth line.text.toList) lines

namespace Nested

variable {n : Nat} {xs ys : List Line}

theorem append (hx : Nested n xs) (hy : Nested n ys) : Nested n (xs ++ ys) := by
  induction hx with
  | nil => exact hy
  | form htext hbody _ ih => exact .form htext hbody (ih hy)
  | group htext hhead hinner _ _ ih =>
    rw [List.cons_append, List.append_assoc, List.cons_append]
    exact .group htext hhead hinner (ih hy)

theorem clean (h : Nested n xs) : ∀ line ∈ xs, line.Clean := by
  induction h with
  | nil => simp
  | form htext hbody _ ih =>
    refine List.forall_mem_cons.2 ⟨⟨?_, ?_⟩, ih⟩
    · simp [htext, hbody.not_mem]
    · simp [htext]
  | group htext hhead _ _ ihi ih =>
    refine List.forall_mem_cons.2 ⟨⟨?_, ?_⟩, ?_⟩
    · simp [htext, hhead.not_mem]
    · simp [htext]
    · exact List.forall_mem_append.2 ⟨ihi, List.forall_mem_cons.2 ⟨⟨by simp, by simp⟩, ih⟩⟩

theorem balanced_margin (n : Nat) : Balanced (List.replicate (2 * n) ' ') := by
  refine .of_not_mem fun c hc => ?_
  rw [(List.mem_replicate.1 hc).2]
  decide

/-- The text of a nested listing is balanced. -/
theorem balanced (h : Nested n xs) : Balanced (Line.renderAll xs).toList := by
  induction h with
  | nil => exact .nil
  | @form n text body lines htext hbody _ ih =>
    have hgroup : Balanced
        ('(' :: (body.toList ++ ')' :: '\n' :: (Line.renderAll lines).toList)) :=
      .group hbody.balanced (.cons (by decide) (by decide) ih)
    rw [Line.toList_renderAll_cons, Line.chars, htext]
    simpa using (balanced_margin n).append hgroup
  | @group n text head inner lines htext hhead _ _ ihi ih =>
    have hinner : Balanced (head.toList ++ '\n' :: ((Line.renderAll inner).toList ++
        List.replicate (2 * n) ' ')) :=
      hhead.balanced.append (.cons (by decide) (by decide) (ihi.append (balanced_margin n)))
    have hgroup := Balanced.group hinner (.cons (c := '\n') (by decide) (by decide) ih)
    rw [Line.toList_renderAll_cons, Line.renderAll_append, String.toList_append,
      Line.toList_renderAll_cons, Line.chars, Line.chars, htext]
    simpa using (balanced_margin n).append hgroup

/-- The margins of a nested listing are right, and it leaves nothing open. -/
theorem indented_append (h : Nested n xs) (hy : Indented n ys) : Indented n (xs ++ ys) := by
  induction h generalizing ys with
  | nil => exact hy
  | @form n text body lines htext hbody _ ih =>
    have hopen : text.toList = '(' :: (body.toList ++ [')']) := by simp [htext]
    have hclosed : (n : Int) + depth text.toList = n := by
      rw [hopen]
      simp [hbody.balanced.depth_eq]
    refine ⟨⟨_, .inl ⟨hopen, rfl⟩⟩, ?_⟩
    rw [hclosed]
    exact ih hy
  | @group n text head inner lines htext hhead _ _ ihi ih =>
    have hopen : text.toList = '(' :: head.toList := by simp [htext]
    have hopened : (n : Int) + depth text.toList = (n + 1 : Nat) := by
      rw [hopen, depth_cons_open, hhead.balanced.depth_eq]
      rfl
    have hclosed : ((n + 1 : Nat) : Int) + depth [')'] = n := by
      rw [depth_cons_close, depth_nil]
      omega
    have hlast : (⟨n, ")"⟩ : Line).text.toList = [')'] := by simp
    have hbehind : Indented (n + 1 : Nat) (⟨n, ")"⟩ :: (lines ++ ys)) := by
      refine ⟨⟨[], .inr ⟨hlast, rfl⟩⟩, ?_⟩
      rw [hlast, hclosed]
      exact ih hy
    rw [List.cons_append, List.append_assoc, List.cons_append]
    refine ⟨⟨_, .inl ⟨hopen, rfl⟩⟩, ?_⟩
    rw [hopened]
    exact ihi hbehind

theorem indented (h : Nested n xs) : Indented n xs := by
  rw [← List.append_nil xs]
  exact h.indented_append trivial

end Nested

/-! ## Texts of nested listings -/

theorem depth_chars (line : Line) : depth line.chars = depth line.text.toList := by
  rw [Line.chars, depth_append, (Nested.balanced_margin line.indent).depth_eq, Int.zero_add]

/-- The depth in front of a line is that of the lines before it. -/
theorem Indented.fitsAt {d : Int} {before after : List Line} {line : Line}
    (h : Indented d (before ++ line :: after)) :
    line.FitsAt (d + depth (before.flatMap Line.chars)) := by
  induction before generalizing d with
  | nil =>
    rw [List.flatMap_nil, depth_nil, Int.add_zero]
    exact h.1
  | cons l before ih =>
    rw [List.flatMap_cons, depth_append, depth_chars, ← Int.add_assoc]
    exact ih h.2

/-- The line starts with as many levels of margin as the depth is, or one less if it begins with
closing a parenthesis. -/
def FollowsDepth (line : List Char) (d : Int) : Prop :=
  ∃ (levels : Nat) (rest : List Char),
    line = List.replicate (2 * levels) ' ' ++ '(' :: rest ∧ (levels : Int) = d ∨
    line = List.replicate (2 * levels) ' ' ++ ')' :: rest ∧ (levels : Int) + 1 = d

/-- Every line of the text of a nested listing has the margin that the parentheses in front of it
demand. -/
theorem Nested.followsDepth {n : Nat} {lines : List Line} (h : Nested n lines)
    {before after : List (List Char)} {line : List Char}
    (hsplit : splitLines (Line.renderAll lines).toList = before ++ line :: after) :
    FollowsDepth line (n + depth before.flatten) := by
  rw [Line.splitLines_renderAll fun line hl => (h.clean line hl).not_mem] at hsplit
  obtain ⟨ls, behind, rfl, rfl, hbehind⟩ := List.map_eq_append_iff.1 hsplit
  obtain ⟨l, ls', rfl, rfl, -⟩ := List.map_eq_cons_iff.1 hbehind
  obtain ⟨rest, hopen | hclose⟩ := h.indented.fitsAt
  · refine ⟨l.indent, rest, .inl ⟨by rw [Line.chars, hopen.1], ?_⟩⟩
    simpa [List.flatMap_def] using hopen.2
  · refine ⟨l.indent, rest, .inr ⟨by rw [Line.chars, hclose.1], ?_⟩⟩
    simpa [List.flatMap_def] using hclose.2

/-- A group by itself leaves a parenthesis open up to its last line. -/
theorem Nested.depth_group {text head : String} {inner : List Line} (htext : text = "(" ++ head)
    (hhead : Inside head) (hinner : Nested 1 inner) :
    ∃ front, (Line.renderAll (⟨0, text⟩ :: (inner ++ [⟨0, ")"⟩]))).toList =
        front ++ [')', '\n'] ∧ depth (front ++ [')', '\n']) = 0 ∧
      ∀ p q, p ++ q = front → p ≠ [] → 0 < depth p := by
  have hfront : Balanced (head.toList ++ '\n' :: (Line.renderAll inner).toList) :=
    hhead.balanced.append (.cons (by decide) (by decide) hinner.balanced)
  refine ⟨'(' :: (head.toList ++ '\n' :: (Line.renderAll inner).toList), ?_, ?_, ?_⟩
  · rw [Line.toList_renderAll_cons, Line.renderAll_append, String.toList_append,
      Line.toList_renderAll_cons]
    simp [htext, Line.chars, Line.renderAll]
  · rw [depth_append, depth_cons_open, hfront.depth_eq]
    decide
  · intro p q hp hne
    obtain ⟨c, p, rfl⟩ := List.exists_cons_of_ne_nil hne
    obtain ⟨rfl, htail⟩ := List.cons.inj hp
    have := hfront.depth_nonneg htail
    rw [depth_cons_open]
    omega

end TreeWasm
