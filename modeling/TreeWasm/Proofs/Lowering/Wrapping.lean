-- SUMMARY: An accepted tree keeps its code when it is wrapped in blocks and ifs.
import TreeWasm.Proofs.Lowering.Places

/-!
# Wrapping

A tree that is accepted on its own can be put inside blocks and ifs (`Wrapper`), beside other
instructions, and nothing about it changes: it is as good as a constant to what is around it, and
the operators that are written for it are the same (`Instruction.lower_wrapped`). The labels that
are around it may be its own.
-/

namespace TreeWasm

open Wasm

/-! ## Wrappers -/

/-- What can be put around a tree: a block, with other children in front of the tree and behind it,
or an if of which the tree is a body. -/
inductive Wrapper where
  | block (label : String) (type : ValueType) (before after : List Instruction)
  | ifThen (condition : Instruction)
  | thenOf (condition elseBody : Instruction)
  | elseOf (condition thenBody : Instruction)

namespace Wrapper

def wrap (i : Instruction) : Wrapper → Instruction
  | .block label type before after => .block label type (before ++ i :: after)
  | .ifThen condition => .ifThen condition i
  | .thenOf condition elseBody => .ifElse condition i elseBody
  | .elseOf condition thenBody => .ifElse condition thenBody i

/-- Which part of the whole the wrapped tree is. -/
def part : Wrapper → Part
  | .block _ _ before _ => .child before.length
  | .ifThen _ | .thenOf .. => .thenBody
  | .elseOf .. => .elseBody

/-- A tree inside wrappers, the first of which is the outermost. -/
def wrapAll (ws : List Wrapper) (i : Instruction) : Instruction := ws.foldr (fun w k => w.wrap k) i

/-- The address of the wrapped tree in the whole. -/
def address (ws : List Wrapper) : Address := (ws.map part).reverse

theorem part?_wrap (w : Wrapper) (i : Instruction) : (w.wrap i).part? w.part = some i := by
  cases w with
  | block label type before after =>
    show (before ++ i :: after)[before.length]? = some i
    rw [List.getElem?_append_right (Nat.le_refl _), Nat.sub_self]
    rfl
  | ifThen | thenOf | elseOf => rfl

theorem at?_address (ws : List Wrapper) {root i : Instruction} {here : Address}
    (h : root.at? here = some (wrapAll ws i)) : root.at? (address ws ++ here) = some i := by
  induction ws generalizing here with
  | nil => exact h
  | cons w ws ih =>
    have hinner : root.at? (w.part :: here) = some (wrapAll ws i) := by
      rw [Instruction.at?_part h]
      exact w.part?_wrap _
    have happend : address (w :: ws) ++ here = address ws ++ w.part :: here := by
      simp [address]
    rw [happend]
    exact ih hinner

/-- A wrapper looks at the outcome of what it is put around, and at nothing else. -/
theorem failure?_wrap (w : Wrapper) {i k : Instruction}
    (h : ∀ frames, failure? (i.lowerIn frames) = failure? (k.lowerIn frames))
    (frames : FrameStack) :
    failure? ((w.wrap i).lowerIn frames) = failure? ((w.wrap k).lowerIn frames) := by
  simp only [Instruction.failure?_lowerIn] at h ⊢
  cases w with
  | block label type before after =>
    have hinner : Site.firstFault? (i.sites (some label :: frames.labels)) = _ :=
      h (frames.enter (.block label))
    simp only [wrap, Instruction.sites, Instruction.sitesAll_append, Instruction.sitesAll,
      Site.firstFault?_cons, Site.firstFault?_append, hinner]
    rfl
  | ifThen condition | thenOf condition other | elseOf condition other =>
    have hinner : Site.firstFault? (i.sites (none :: frames.labels)) = _ := h (frames.enter .cond)
    simp only [wrap, Instruction.sites, Site.firstFault?_cons, Site.firstFault?_append, hinner]
    rfl

theorem failure?_wrapAll (ws : List Wrapper) {i k : Instruction}
    (h : ∀ frames, failure? (i.lowerIn frames) = failure? (k.lowerIn frames))
    (frames : FrameStack) :
    failure? ((wrapAll ws i).lowerIn frames) = failure? ((wrapAll ws k).lowerIn frames) := by
  induction ws generalizing frames with
  | nil => exact h frames
  | cons w ws ih => exact w.failure?_wrap ih frames

end Wrapper

namespace Instruction

open Wrapper

/-- What lowering makes of an accepted tree does not depend on what is around the tree. The node
stays the same when more frames are open further out, under the frames that the tree was accepted
with. Inside blocks and ifs, whatever their labels and the instructions beside it are, the tree is
as good as a constant: it is no reason for a refusal. Where the whole is accepted, the operators
that are written for the tree and its parts stand together, and they are those of the tree alone. -/
theorem lower_wrapped (i : Instruction) :
    (∀ (inner outer : FrameStack) (n : Node), (i.lower.on inner).1 = .ok n →
      (i.lower.on (inner.inside outer)).1 = .ok n) ∧
    ∀ n, i.lowerRoot = .ok n → ∀ ws : List Wrapper,
      failure? (wrapAll ws i).lowerRoot = failure? (wrapAll ws (.constInt32 0)).lowerRoot ∧
      ∀ whole, (wrapAll ws i).lowerRoot = .ok whole → ∃ before code after,
        (wrapAll ws i).placed whole = before ++ (code ++ after) ∧
        code.map Placed.operator = n.operators ∧
        code.map Placed.origin = i.origins (address ws) ∧
        ∀ x ∈ before ++ after, ¬ address ws <:+ x.origin := by
  constructor
  · intro inner outer n h
    rw [on_lower] at h ⊢
    exact i.lowerIn_of_prefix ⟨outer.labels, (inner.labels_inside outer).symm⟩ h
  · intro n h ws
    have hany := lowerIn_of_lowerRoot h
    constructor
    · refine failure?_wrapAll ws (fun frames => ?_) {}
      rw [hany frames]
      rfl
    · intro whole hwhole
      have hat : (wrapAll ws i).at? (address ws ++ []) = some i := at?_address ws rfl
      rw [List.append_nil] at hat
      obtain ⟨frames, m, hm, before, after, hsplit, hrest⟩ := standsIn_at? hwhole hat
      obtain rfl : n = m := by
        rw [hany frames] at hm
        exact Except.ok.inj hm
      exact ⟨before, _, after, hsplit, operators_placedAt hm, origins_placedAt hm, hrest⟩

/-- A block that is left at once. -/
def shadowed : Instruction := .block "a" .never [.breakTo "a"]

/-- An if in a block of the same label. Breaks in front of the if and behind it leave that block. -/
def shadows : List Wrapper :=
  [.block "a" .never [.ifThen (.constBool true) (.breakTo "a")] [.breakTo "a"],
   .elseOf (.constBool true) (.breakTo "a")]

/-- The break of the inner block does not get deeper. -/
theorem shadowed_wrapped :
    ∃ n whole, shadowed.lowerRoot = .ok n ∧ n.operators = [.block none, .branch 0, .finish] ∧
      (wrapAll shadows shadowed).lowerRoot = .ok whole ∧
      ∃ before code after, (wrapAll shadows shadowed).placed whole = before ++ (code ++ after) ∧
        code.map Placed.operator = [.block none, .branch 0, .finish] := by
  obtain ⟨n, whole, hn, hops, hwhole⟩ : ∃ n whole, shadowed.lowerRoot = .ok n ∧
      n.operators = [.block none, .branch 0, .finish] ∧
      (wrapAll shadows shadowed).lowerRoot = .ok whole := ⟨_, _, rfl, rfl, rfl⟩
  obtain ⟨-, hwrapped⟩ := lower_wrapped shadowed
  obtain ⟨-, hplace⟩ := hwrapped n hn shadows
  obtain ⟨before, code, after, hsplit, hcode, -, -⟩ := hplace whole hwhole
  exact ⟨n, whole, hn, hops, hwhole, before, code, after, hsplit, hcode.trans hops⟩

end Instruction

end TreeWasm
