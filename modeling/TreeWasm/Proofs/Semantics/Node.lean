-- SUMMARY: Evaluation of machine nodes, which never fails where they have an effect.
import TreeWasm.Proofs.Semantics.Outcome
import TreeWasm.Proofs.Typing.Node

/-!
# Evaluation of nodes

Nodes evaluate like instructions, but they are left by depth: blocks and the bodies of ifs count
down what they are left for. `Node.eval_sound` says that the outcome of a node is what its effect
tells.
-/

namespace TreeWasm

/-! ## Outcomes -/

namespace Outcome

/-- What is left of a value that is carried to where a result may be due. -/
def kept (result : Option Wasm.ValType) (v : Option Value) : Option Value :=
  if result.isSome then v else none

/-- Close the frame around an evaluation. -/
def exit (result : Option Wasm.ValType) : Outcome Nat → Outcome Nat
  | ends v => ends v
  | leaves 0 v => ends (kept result v)
  | leaves (d + 1) v => leaves d v
  | traps => traps
  | fails => fails

/-- The outcome is one that an effect allows inside frames with the given results. -/
def Sound (results : Results) (e : Effect) : Outcome Nat → Prop
  | ends v => e = .ofResult (v.map Value.type)
  | leaves d v => ∃ result, results[d]? = some result ∧ (result = none ∨ v.map Value.type = result)
  | traps => True
  | fails => False

/-- An evaluation that completes leaves what fits. -/
theorem Sound.type_of_ends {results : Results} {e : Effect} {v : Option Value}
    (h : (ends v).Sound results e) {result : Option Wasm.ValType} (he : e.Fits result) :
    v.map Value.type = result := by
  obtain rfl : e = .ofResult (v.map Value.type) := h
  rcases he with hv | hv
  · rw [← Effect.valType?_ofResult (v.map Value.type), hv, Effect.valType?_ofResult]
  · cases hm : v.map Value.type <;> rw [hm] at hv <;> cases hv

/-- A condition that completes leaves a word. -/
theorem Sound.eq_i32_of_ends {results : Results} {e : Effect} {v : Option Value}
    (h : (ends v).Sound results e) (he : e.Fits (some .i32)) : ∃ n, v = some (.i32 n) := by
  obtain ⟨a, rfl, ha⟩ := Option.map_eq_some_iff.1 (h.type_of_ends he)
  obtain ⟨n, rfl⟩ := Value.eq_i32_of_type ha
  exact ⟨n, rfl⟩

/-- An operand that completes leaves a value. -/
theorem Sound.eq_some_of_ends {results : Results} {e : Effect} {v : Option Value}
    (h : (ends v).Sound results e) {t : Wasm.ValType} (he : e.Fits (some t)) : ∃ a, v = some a := by
  obtain ⟨a, rfl, -⟩ := Option.map_eq_some_iff.1 (h.type_of_ends he)
  exact ⟨a, rfl⟩

theorem Sound.of_fits {results : Results} {e : Effect} {o : Outcome Nat}
    (h : o.Sound results e) {result : Option Wasm.ValType} (he : e.Fits result) :
    o.Sound results (.ofResult result) := by
  cases o with
  | ends v =>
    have hv := h.type_of_ends he
    exact congrArg Effect.ofResult hv.symm
  | leaves d v => exact h
  | traps => exact h
  | fails => exact h

theorem Sound.andThen {results : Results} {e e' : Effect} {o : Outcome Nat}
    {next : Option Value → Outcome Nat} (h : o.Sound results e)
    (hnext : ∀ v, (ends v).Sound results e → (next v).Sound results e') :
    (o.andThen next).Sound results e' := by
  cases o with
  | ends v => exact hnext v h
  | leaves d v => exact h
  | traps => exact h
  | fails => exact h

theorem Sound.exit {results : Results} {result : Option Wasm.ValType} {o : Outcome Nat}
    (h : o.Sound (result :: results) (.ofResult result)) :
    (o.exit result).Sound results (.ofResult result) := by
  cases o with
  | ends v => exact h
  | leaves d v =>
    obtain ⟨result', hr, hv⟩ := h
    cases d with
    | zero =>
      cases hr
      show Effect.ofResult result = .ofResult ((kept result v).map Value.type)
      rcases hv with rfl | rfl
      · rfl
      · cases v <;> rfl
    | succ d => exact ⟨result', hr, hv⟩
  | traps => exact h
  | fails => exact h

theorem sound_orTrap (results : Results) {A : Arithmetic} {op : Arith} {t : Wasm.ValType}
    {a b : Value} : (orTrap (A.apply op t a b)).Sound results (.value t) := by
  cases h : A.apply op t a b with
  | none => trivial
  | some v => exact congrArg Effect.value (A.type_apply h).symm

theorem Sound.choose {results : Results} {e : Effect} {o o' : Outcome Nat} (n : Int32)
    (h : o.Sound results e) (h' : o'.Sound results e) :
    (Outcome.choose o o' (some (.i32 n))).Sound results e := by
  by_cases hn : n = 0
  · subst hn
    exact h'
  · rwa [choose_of_ne hn]

end Outcome

/-! ## Nodes -/

namespace Node

section

variable (A : Arithmetic) (slots : List Value)

mutual

/-- Evaluate a node. -/
def eval : Node → Outcome Nat
  | .constI32 value => .ends (some (.i32 value))
  | .constF64 value => .ends (some (.f64 value))
  | .localGet index _ => .ofSlot slots index
  | .block _ type children => (evalAll children).exit type.valType?
  | .binary op lhs rhs =>
    (eval lhs).andThen fun a => (eval rhs).andThen fun b => .ofOperator A op.arith op.valType a b
  | .breakTo _ depth => .leaves depth none
  | .breakWith _ depth value => (eval value).andThen (.leaves depth)
  | .ifThen type condition thenBody =>
    (eval condition).andThen (.choose ((eval thenBody).exit type.valType?) (.ends none))
  | .ifElse type condition thenBody elseBody =>
    (eval condition).andThen
      (.choose ((eval thenBody).exit type.valType?) ((eval elseBody).exit type.valType?))
  | .drop value => (eval value).forget

/-- Evaluate nodes in order. -/
def evalAll : List Node → Outcome Nat
  | [] => .ends none
  | [n] => eval n
  | n :: next :: ns => (eval n).andThen fun _ => evalAll (next :: ns)

end

end

variable {A : Arithmetic} {vs : List Value} {slots : List Wasm.ValType}

mutual

/-- A node comes out as its effect tells. In particular it does not fail. -/
theorem eval_sound (hvs : vs.map Value.type = slots) (n : Node) {results : Results} {e : Effect}
    (h : n.HasEffect slots results e) : (n.eval A vs).Sound results e := by
  cases h with
  | constI32 => exact rfl
  | constF64 => exact rfl
  | @localGet _ index _ t hi _ =>
    subst hvs
    rw [List.getElem?_map] at hi
    obtain ⟨v, hv, rfl⟩ := Option.map_eq_some_iff.1 hi
    show (Outcome.ofSlot vs index).Sound results _
    unfold Outcome.ofSlot
    rw [hv]
    exact rfl
  | @block _ type children label hc =>
    obtain ⟨e, he, hs⟩ := evalAll_sound hvs children hc
    exact (hs.of_fits he).exit
  | @binary _ op lhs rhs _ _ hlt hlf hrt hrf =>
    apply (eval_sound hvs lhs hlt).andThen
    intro a ha
    apply (eval_sound hvs rhs hrt).andThen
    intro b hb
    obtain ⟨a, rfl⟩ := ha.eq_some_of_ends hlf
    obtain ⟨b, rfl⟩ := hb.eq_some_of_ends hrf
    exact Outcome.sound_orTrap results
  | breakTo hd => exact ⟨none, hd, .inl rfl⟩
  | @breakWith _ label depth result value e hd hv hvf =>
    refine (eval_sound hvs value hv).andThen fun v hs => ⟨result, hd, ?_⟩
    exact hvf.imp_right hs.type_of_ends
  | @ifThen _ type condition thenBody _ _ htype hc hcf ht htf =>
    apply (eval_sound hvs condition hc).andThen
    intro v hs
    obtain ⟨n, rfl⟩ := hs.eq_i32_of_ends hcf
    rw [htype]
    exact .choose n ((eval_sound hvs thenBody ht).of_fits htf).exit rfl
  | @ifElse _ type condition thenBody elseBody _ _ _ hc hcf hlt hlf hrt hrf =>
    apply (eval_sound hvs condition hc).andThen
    intro v hs
    obtain ⟨n, rfl⟩ := hs.eq_i32_of_ends hcf
    exact .choose n ((eval_sound hvs thenBody hlt).of_fits hlf).exit
      ((eval_sound hvs elseBody hrt).of_fits hrf).exit
  | @drop _ value t hv => exact (eval_sound hvs value hv).andThen fun v _ => rfl

/-- Nodes in sequence come out as what they end with tells. -/
theorem evalAll_sound (hvs : vs.map Value.type = slots) (ns : List Node) {results : Results}
    {result : Option Wasm.ValType} (h : EndsWith slots results ns result) :
    ∃ e : Effect, e.Fits result ∧ (evalAll A vs ns).Sound results e := by
  cases h with
  | nil => exact ⟨.void, .inl rfl, rfl⟩
  | @last _ n e _ hn hf => exact ⟨e, hf, eval_sound hvs n hn⟩
  | @cons _ n e ns _ hn hf hns =>
    obtain ⟨e', hf', hs⟩ := evalAll_sound hvs ns hns
    cases ns with
    | nil =>
      cases hns
      exact ⟨e, hf, eval_sound hvs n hn⟩
    | cons next ns => exact ⟨e', hf', (eval_sound hvs n hn).andThen fun _ _ => hs⟩

end

end Node

end TreeWasm
