-- SUMMARY: After any calls the stack of frames holds what was entered and not exited since, and labels lead into it.
import TreeWasm.Proofs.Lowering.Outcome

/-!
# Calls on a stack of frames

Frames are entered and exited in any order, and an exit where nothing is open changes nothing. What
is open after that can be told from the calls alone: an entry is still open if the calls behind it
have never exited more than they entered (`FrameStack.outstanding`). The stack holds these entries,
the last one first, and knows of each how many are below it (`FrameStack.run_holds_outstanding`).

It tells such numbers in 32 bits, and they are what they stand for as long as fewer entries are open
(`FrameStack.Holds.countsExactly`). With one entry more the depth is that of a new stack again
(`FrameStack.exists_depth_eq_zero`).
-/

namespace TreeWasm.FrameStack

inductive Call where
  | enterBlock (label : String)
  | enterIf
  | exit
deriving DecidableEq

namespace Call

/-- What a call opens a frame for. -/
def opens? : Call → Option Frame.Kind
  | .enterBlock label => some (.block label)
  | .enterIf => some .cond
  | .exit => none

/-- The frames after a call. An exit that fails leaves them as they were. -/
def perform (s : FrameStack) : Call → FrameStack
  | .enterBlock label => s.enterBlock label
  | .enterIf => s.enterIf
  | .exit => match s.exit with
    | .ok (_, outer) => outer
    | .error _ => s

end Call

/-- The frames after calls. -/
def after (s : FrameStack) (calls : List Call) : FrameStack := calls.foldl Call.perform s

/-- The frames after calls on a new stack. -/
def run (calls : List Call) : FrameStack := ({} : FrameStack).after calls

/-! ## Entries that are still open -/

/-- An entry is still open behind the calls: up to no point among them are there more exits than
entries. -/
def KeepsOpen (calls : List Call) : Prop :=
  ∀ n ≤ calls.length,
    (calls.take n).count .exit ≤ (calls.take n).countP (·.opens?.isSome)

instance (calls : List Call) : Decidable (KeepsOpen calls) :=
  inferInstanceAs (Decidable (∀ n ≤ calls.length, _))

/-- The entries among the calls that are not exited yet, in order. -/
def outstanding : List Call → List Frame.Kind
  | [] => []
  | c :: calls =>
    if KeepsOpen calls then c.opens?.toList ++ outstanding calls else outstanding calls

/-- How many of the frames that were open before the calls are exited by them. -/
def exited : List Call → Nat
  | [] => 0
  | .exit :: calls => exited calls + 1
  | _ :: calls => exited calls - 1

theorem forall_take_cons {p : List Call → Prop} (c : Call) (calls : List Call) :
    (∀ n ≤ (c :: calls).length, p ((c :: calls).take n)) ↔
      p [] ∧ ∀ n ≤ calls.length, p (c :: calls.take n) := by
  constructor
  · intro h
    exact ⟨h 0 (Nat.zero_le _), fun n hn => h (n + 1) (Nat.succ_le_succ hn)⟩
  · rintro ⟨hnil, hcons⟩ n hn
    cases n with
    | zero => exact hnil
    | succ n => exact hcons n (Nat.le_of_succ_le_succ hn)

/-- No more is exited by the calls than is entered by them, but for `k` frames. -/
def Covers (k : Nat) (calls : List Call) : Prop :=
  calls.count .exit ≤ calls.countP (·.opens?.isSome) + k

theorem covers_entry {c : Call} (hc : c ≠ .exit) (ho : c.opens?.isSome = true) {k : Nat}
    {calls : List Call} : Covers k (c :: calls) ↔ Covers (k + 1) calls := by
  unfold Covers
  rw [List.count_cons_of_ne hc, List.countP_cons, if_pos ho]
  omega

theorem covers_exit {k : Nat} {calls : List Call} :
    Covers (k + 1) (.exit :: calls) ↔ Covers k calls := by
  unfold Covers
  rw [List.count_cons_self, List.countP_cons, if_neg (nofun : Call.exit.opens?.isSome ≠ true)]
  omega

/-- The number of frames exited is the least that covers the calls at every point. -/
theorem exited_le_iff (calls : List Call) (k : Nat) :
    exited calls ≤ k ↔ ∀ n ≤ calls.length, Covers k (calls.take n) := by
  induction calls generalizing k with
  | nil => simp [exited, Covers]
  | cons c calls ih =>
    have hnil (k : Nat) : Covers k [] := Nat.zero_le _
    rw [forall_take_cons]
    have hentry {c : Call} (hc : c ≠ .exit) (ho : c.opens?.isSome = true) :
        exited calls - 1 ≤ k ↔ Covers k [] ∧ ∀ n ≤ calls.length, Covers k (c :: calls.take n) := by
      simp only [Nat.sub_le_iff_le_add, ih (k + 1), covers_entry hc ho, hnil, true_and]
    cases c with
    | enterBlock label => exact hentry nofun rfl
    | enterIf => exact hentry nofun rfl
    | exit =>
      cases k with
      | zero =>
        refine ⟨nofun, fun h => ?_⟩
        cases h.2 0 (Nat.zero_le _)
      | succ k => simp only [exited, Nat.add_le_add_iff_right, ih k, covers_exit, hnil, true_and]

theorem keepsOpen_iff (calls : List Call) : KeepsOpen calls ↔ exited calls = 0 := by
  rw [← Nat.le_zero, exited_le_iff]
  rfl

/-! ## One call -/

/-- Each frame counts those that are below it. -/
def Layered (s : FrameStack) : Prop :=
  ∀ inner frame outer, s.frames = inner ++ frame :: outer → frame.depth = .ofNat outer.length

theorem layered_empty : Layered {} := by
  intro inner frame outer h
  cases List.append_ne_nil_of_right_ne_nil inner (List.cons_ne_nil frame outer) h.symm

variable {s : FrameStack}

theorem Layered.enter (h : s.Layered) (kind : Frame.Kind) : (s.enter kind).Layered := by
  intro inner frame outer hsplit
  cases inner with
  | nil =>
    obtain ⟨rfl, rfl⟩ := List.cons.inj hsplit
    rfl
  | cons first inner => exact h inner frame outer (List.cons.inj hsplit).2

theorem perform_exit (s : FrameStack) : Call.exit.perform s = ⟨s.frames.drop 1⟩ := by
  rcases s with ⟨_ | ⟨frame, outer⟩⟩ <;> rfl

theorem Layered.perform (h : s.Layered) (c : Call) : (c.perform s).Layered := by
  cases c with
  | enterBlock label => exact h.enter _
  | enterIf => exact h.enter _
  | exit =>
    rw [perform_exit]
    intro inner frame outer hsplit
    refine h (s.frames.take 1 ++ inner) frame outer ?_
    rw [List.append_assoc, ← hsplit, List.take_append_drop]

/-! ## A run -/

/-- What the frames of a stack were entered for, innermost first. -/
def kinds (s : FrameStack) : List Frame.Kind := s.frames.map Frame.kind

theorem depth_eq_length_kinds (s : FrameStack) : s.depth = .ofNat s.kinds.length :=
  congrArg UInt32.ofNat (List.length_map ..).symm

theorem Layered.after (h : s.Layered) (calls : List Call) : (s.after calls).Layered := by
  induction calls generalizing s with
  | nil => exact h
  | cons c calls ih => exact ih (h.perform c)

theorem kinds_perform_entry {c : Call} {kind : Frame.Kind} (h : c.opens? = some kind)
    (s : FrameStack) : (c.perform s).kinds = kind :: s.kinds := by
  cases c <;> cases h <;> rfl

theorem kinds_perform_exit (s : FrameStack) : (Call.exit.perform s).kinds = s.kinds.drop 1 := by
  rw [perform_exit]
  exact List.map_drop

theorem outstanding_entry {c : Call} {kind : Frame.Kind} (h : c.opens? = some kind)
    (calls : List Call) :
    outstanding (c :: calls) = (if exited calls = 0 then [kind] else []) ++ outstanding calls := by
  by_cases hopen : KeepsOpen calls
  · rw [outstanding, if_pos hopen, if_pos ((keepsOpen_iff calls).1 hopen), h]
    rfl
  · rw [outstanding, if_neg hopen, if_neg (mt (keepsOpen_iff calls).2 hopen)]
    rfl

theorem outstanding_exit (calls : List Call) :
    outstanding (.exit :: calls) = outstanding calls := by
  rw [outstanding]
  split <;> rfl

/-- Behind the calls the frames entered by them stand inside of those that they have not exited. -/
theorem kinds_after (s : FrameStack) (calls : List Call) :
    (s.after calls).kinds = (outstanding calls).reverse ++ s.kinds.drop (exited calls) := by
  induction calls generalizing s with
  | nil => rfl
  | cons c calls ih =>
    show ((c.perform s).after calls).kinds = _
    rw [ih]
    have hentry {kind : Frame.Kind} (h : c.opens? = some kind)
        (he : exited (c :: calls) = exited calls - 1) :
        (outstanding calls).reverse ++ (c.perform s).kinds.drop (exited calls) =
          (outstanding (c :: calls)).reverse ++ s.kinds.drop (exited (c :: calls)) := by
      rw [kinds_perform_entry h, he, outstanding_entry h]
      -- An entry behind which nothing is exited is still open; any other is the first to be exited.
      cases exited calls with
      | zero => simp
      | succ n => simp
    cases c with
    | enterBlock label => exact hentry rfl rfl
    | enterIf => exact hentry rfl rfl
    | exit =>
      rw [outstanding_exit, kinds_perform_exit, List.drop_drop, Nat.add_comm]
      rfl

theorem kinds_run (calls : List Call) : (run calls).kinds = (outstanding calls).reverse := by
  rw [run, kinds_after]
  exact (congrArg _ List.drop_nil).trans (List.append_nil _)

theorem layered_run (calls : List Call) : (run calls).Layered := layered_empty.after calls

/-! ## What can be asked of the stack -/

/-- The stack answers as a plain one that holds these entries, the outermost first. Numbers are
told in 32 bits. -/
structure Holds (s : FrameStack) (entries : List Frame.Kind) : Prop where
  frames : s.frames.reverse.map Frame.kind = entries
  layered : ∀ inner frame outer, s.frames = inner ++ frame :: outer →
    frame.depth = .ofNat outer.length
  depth : s.depth = .ofNat entries.length
  isBalanced : s.isBalanced = true ↔ entries = []
  exit_last : ∀ outer kind, entries = outer ++ [kind] →
    s.exit = .ok (⟨kind, .ofNat outer.length⟩, Call.exit.perform s)
  exit_none : entries = [] → s.exit = .error .noOpenFrame ∧ Call.exit.perform s = s
  /-- A label leads to a block with that label such that none further in has it. -/
  resolve : ∀ label r, s.resolve label = .ok r ↔
    ∃ d, .ofNat d = r ∧ entries.reverse[d]? = some (.block label) ∧
      ∀ d' < d, entries.reverse[d']? ≠ some (.block label)
  /-- A label is refused just when no block has it, as one that was not found. -/
  refused : ∀ label refusal, s.resolve label = .error refusal ↔
    refusal = .unknownLabel label s.depth ∧ .block label ∉ entries
  notFound : ∀ label refusal, s.resolve label = .error refusal →
    refusal.diagnose.kind = .notFound

/-- What the stack tells in 32 bits are the numbers themselves. -/
structure CountsExactly (s : FrameStack) (entries : List Frame.Kind) : Prop where
  layered : ∀ inner frame outer, s.frames = inner ++ frame :: outer →
    frame.depth.toNat = outer.length
  depth : s.depth.toNat = entries.length
  isBalanced : s.isBalanced = true ↔ s.depth = 0
  resolve : ∀ label r, s.resolve label = .ok r ↔
    entries.reverse[r.toNat]? = some (.block label) ∧
      ∀ d < r.toNat, entries.reverse[d]? ≠ some (.block label)

theorem Layered.exit_last (h : s.Layered) {outer : List Frame.Kind} {kind : Frame.Kind}
    (hkinds : s.kinds = kind :: outer) :
    s.exit = .ok (⟨kind, .ofNat outer.length⟩, Call.exit.perform s) := by
  obtain ⟨_ | ⟨⟨kind', depth⟩, rest⟩⟩ := s
  · cases hkinds
  · obtain ⟨rfl, rfl⟩ := List.cons.inj hkinds
    have hdepth : depth = .ofNat rest.length := h [] _ rest rfl
    rw [List.length_map, ← hdepth]
    rfl

theorem distance_iff_kinds (s : FrameStack) (label : String) (d : Nat) :
    s.distance label = .ok d ↔
      s.kinds[d]? = some (.block label) ∧ ∀ d' < d, s.kinds[d']? ≠ some (.block label) := by
  simp only [distance_iff, kinds, List.getElem?_map]

theorem resolve_eq_ok_iff {label : String} {r : UInt32} :
    s.resolve label = .ok r ↔ ∃ d, .ofNat d = r ∧ s.distance label = .ok d := by
  unfold resolve
  cases s.distance label <;> simp [Except.map]

theorem resolve_eq_error_iff {label : String} {refusal : Refusal} :
    s.resolve label = .error refusal ↔ s.distance label = .error refusal := by
  unfold resolve
  cases s.distance label <;> simp [Except.map]

theorem distance_error_iff (s : FrameStack) (label : String) (refusal : Refusal) :
    s.distance label = .error refusal ↔
      refusal = .unknownLabel label s.depth ∧ .block label ∉ s.kinds := by
  have hnone : s.frames.findIdx? (·.label? == some label) = none ↔ .block label ∉ s.kinds := by
    simp [kinds, Frame.label?_eq_some_iff]
  unfold FrameStack.distance
  cases hfind : s.frames.findIdx? (·.label? == some label) with
  | none => simp [hnone.1 hfind, eq_comm]
  | some i =>
    have hmem : .block label ∈ s.kinds := Decidable.not_not.1 fun hmem => by
      rw [hnone.2 hmem] at hfind
      cases hfind
    simp [hmem]

theorem Layered.holds (h : s.Layered) : s.Holds s.kinds.reverse where
  frames := List.map_reverse
  layered := h
  depth := by rw [List.length_reverse, depth_eq_length_kinds]
  isBalanced := by rw [isBalanced_iff, List.reverse_eq_nil_iff, kinds, List.map_eq_nil_iff]
  exit_last outer kind hlast := by
    have hkinds : s.kinds = kind :: outer.reverse := by
      rw [← List.reverse_reverse s.kinds, hlast, List.reverse_concat]
    rw [h.exit_last hkinds, List.length_reverse]
  exit_none hnil := by
    obtain ⟨_ | ⟨_, _⟩⟩ := s
    · exact ⟨rfl, rfl⟩
    · cases List.reverse_eq_nil_iff.1 hnil
  resolve label r := by simp only [resolve_eq_ok_iff, List.reverse_reverse, distance_iff_kinds]
  refused label refusal := by
    rw [List.mem_reverse, resolve_eq_error_iff, distance_error_iff]
  notFound label refusal hrefused := by
    obtain ⟨rfl, -⟩ := (distance_error_iff s label refusal).1 (resolve_eq_error_iff.1 hrefused)
    rfl

/-- As long as 32 bits can tell the entries apart, every number is told as it is. -/
theorem Holds.countsExactly {entries : List Frame.Kind} (h : s.Holds entries)
    (hsize : entries.length < UInt32.size) : s.CountsExactly entries := by
  have hlength : s.frames.length = entries.length := by
    rw [← h.frames, List.length_map, List.length_reverse]
  refine ⟨fun inner frame outer hsplit => ?_, ?_, ?_, fun label r => ?_⟩
  · have houter : outer.length < UInt32.size := by
      rw [hsplit, List.length_append, List.length_cons] at hlength
      omega
    rw [h.layered inner frame outer hsplit, UInt32.toNat_ofNat_of_lt' houter]
  · rw [h.depth, UInt32.toNat_ofNat_of_lt' hsize]
  · rw [h.isBalanced, h.depth, ← UInt32.toNat_inj, UInt32.toNat_ofNat_of_lt' hsize]
    exact List.length_eq_zero_iff.symm
  · rw [h.resolve]
    constructor
    · rintro ⟨d, rfl, hd, hinner⟩
      have hlt : d < UInt32.size := by
        have := (List.getElem?_eq_some_iff.1 hd).1
        rw [List.length_reverse] at this
        omega
      rw [UInt32.toNat_ofNat_of_lt' hlt]
      exact ⟨hd, hinner⟩
    · intro hr
      exact ⟨r.toNat, UInt32.ofNat_toNat, hr⟩

theorem kinds_run_replicate (n : Nat) :
    (run (.replicate n .enterIf)).kinds = .replicate n .cond := by
  induction n with
  | zero => rfl
  | succ n ih =>
    rw [List.replicate_succ', run, after, List.foldl_append]
    show .cond :: (run (.replicate n .enterIf)).kinds = _
    rw [ih, List.replicate_succ]

/-- Behind as many entries as there are integers of 32 bits, the depth is that of no open frame. -/
theorem exists_depth_eq_zero : ∃ calls, (run calls).depth = 0 ∧ (run calls).isBalanced = false := by
  let calls := List.replicate UInt32.size Call.enterIf
  have hkinds : (run calls).kinds = .replicate UInt32.size .cond := kinds_run_replicate _
  refine ⟨calls, ?_, ?_⟩
  · rw [depth_eq_length_kinds, hkinds, List.length_replicate]
    decide
  · refine Bool.eq_false_iff.2 fun h => ?_
    have hnone : (run calls).kinds = [] := congrArg (List.map _) ((isBalanced_iff _).1 h)
    rw [hkinds, List.replicate_eq_nil_iff] at hnone
    exact absurd hnone (by decide)

end TreeWasm.FrameStack
