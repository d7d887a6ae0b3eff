-- SUMMARY: Running the operators of a node comes to what the node evaluates to.
import TreeWasm.Proofs.Machine.Code
import TreeWasm.Proofs.Semantics.Machine
import TreeWasm.Proofs.Semantics.Node

/-!
# Running the code of nodes

The operators of a node do to the machine what the outcome of the node says (`Node.run_operators`):
they push the value that is left, or they unwind to the label that the node is left for, or they
trap. This holds in front of any other code and on top of any operands.

Jumps pass over the code of whole nodes, since a node closes all the frames that it opens. That is
all they need to know of it (`Skips`).
-/

namespace TreeWasm

open Wasm Wasm.Execution

namespace Wasm.Execution

/-! ## Passing over code -/

/-- The operator neither opens nor closes a frame. -/
def isFlat : Operator → Bool
  | .block _ | .cond _ | .alternative | .finish => false
  | _ => true

/-- The function looks for something behind the frames that are opened on the way. -/
structure Skips (jump : Nat → List Operator → List Operator) : Prop where
  flat {op : Operator} (h : isFlat op = true) (d : Nat) (code : List Operator) :
    jump d (op :: code) = jump d code
  block (result : Option ValType) (d : Nat) (code : List Operator) :
    jump d (.block result :: code) = jump (d + 1) code
  cond (result : Option ValType) (d : Nat) (code : List Operator) :
    jump d (.cond result :: code) = jump (d + 1) code
  alternative (d : Nat) (code : List Operator) :
    jump (d + 1) (.alternative :: code) = jump (d + 1) code
  finish (d : Nat) (code : List Operator) : jump (d + 1) (.finish :: code) = jump d code

theorem skips_behindEnd : Skips behindEnd where
  flat {op} h d code := by cases op <;> first | rfl | cases h
  block _ _ _ := rfl
  cond _ _ _ := rfl
  alternative _ _ := rfl
  finish _ _ := rfl

theorem skips_otherwise : Skips otherwise where
  flat {op} h d code := by cases op <;> first | rfl | cases h
  block _ _ _ := rfl
  cond _ _ _ := rfl
  alternative _ _ := rfl
  finish _ _ := rfl

mutual

theorem Skips.operators {jump : Nat → List Operator → List Operator} (hj : Skips jump) (d : Nat)
    (code : List Operator) : ∀ n : Node, jump d (n.operators ++ code) = jump d code
  | .constI32 _ | .constF64 _ | .localGet .. | .breakTo .. => hj.flat rfl d code
  | .block _ _ children => by
    rw [Node.operators_block, List.cons_append, hj.block, List.append_assoc,
      hj.operatorsAll (d + 1) _ children]
    exact hj.finish d code
  | .binary op lhs rhs => by
    rw [Node.operators_binary, List.append_assoc, hj.operators d _ lhs, List.append_assoc,
      hj.operators d _ rhs]
    exact hj.flat rfl d code
  | .breakWith _ _ value => by
    rw [Node.operators_breakWith, List.append_assoc, hj.operators d _ value]
    exact hj.flat rfl d code
  | .ifThen _ condition thenBody => by
    rw [Node.operators_ifThen, List.append_assoc, hj.operators d _ condition, List.cons_append,
      hj.cond, List.append_assoc, hj.operators (d + 1) _ thenBody]
    exact hj.finish d code
  | .ifElse _ condition thenBody elseBody => by
    rw [Node.operators_ifElse, List.append_assoc, hj.operators d _ condition, List.cons_append,
      hj.cond, List.append_assoc, hj.operators (d + 1) _ thenBody, List.cons_append,
      hj.alternative, List.append_assoc, hj.operators (d + 1) _ elseBody]
    exact hj.finish d code
  | .drop value => by
    rw [Node.operators_drop, List.append_assoc, hj.operators d _ value]
    exact hj.flat rfl d code

theorem Skips.operatorsAll {jump : Nat → List Operator → List Operator} (hj : Skips jump) (d : Nat)
    (code : List Operator) :
    ∀ ns : List Node, jump d (Node.operatorsAll ns ++ code) = jump d code
  | [] => rfl
  | n :: ns => by
    rw [Node.operatorsAll_cons, List.append_assoc, hj.operators d _ n, hj.operatorsAll d _ ns]

end

/-! ## Going on behind a node -/

section

variable (A : Arithmetic) (vs : List Value)

/-- Go on as an outcome says, with the given operands and labels around and the given code
behind. -/
def resume (operands : List Value) (labels : List Label) (code : List Operator) :
    Outcome Nat → Final
  | .ends v => run A vs ⟨v.toList ++ operands, labels, code⟩
  | .leaves d v =>
    match labels[d]? with
    | some target =>
      run A vs ⟨v.toList.take target.arity ++ target.operands, labels.drop (d + 1),
        behindEnd d code⟩
    | none => .stuck
  | .traps => .trapped
  | .fails => .stuck

variable {A vs} {operands operands' : List Value} {labels : List Label} {code code' : List Operator}

/-- What comes next is run with the value that is left, and passed over otherwise. -/
theorem resume_andThen {o : Outcome Nat} {next : Option Value → Outcome Nat}
    (hcode : ∀ d, behindEnd d code = behindEnd d code')
    (hnext : ∀ v, o = .ends v →
      run A vs ⟨v.toList ++ operands, labels, code⟩ = resume A vs operands' labels code' (next v)) :
    resume A vs operands labels code o = resume A vs operands' labels code' (o.andThen next) := by
  cases o with
  | ends v => exact hnext v rfl
  | leaves d v => simp only [Outcome.andThen_leaves, resume, hcode d]
  | traps | fails => rfl

theorem toList_kept (result : Option ValType) (v : Option Value) :
    (Outcome.kept result v).toList = v.toList.take result.toList.length := by
  cases result <;> cases v <;> rfl

/-- A frame ends where its code does, and where it is left. -/
theorem resume_exit {result : Option ValType}
    (hend : ∀ values, run A vs ⟨values, ⟨result.toList.length, operands⟩ :: labels, code⟩ =
      run A vs ⟨values ++ operands, labels, code'⟩)
    (hzero : behindEnd 0 code = code') (hsucc : ∀ d, behindEnd (d + 1) code = behindEnd d code')
    (o : Outcome Nat) :
    resume A vs [] (⟨result.toList.length, operands⟩ :: labels) code o =
      resume A vs operands labels code' (o.exit result) := by
  cases o with
  | ends v =>
    show run A vs ⟨v.toList ++ [], _, code⟩ = run A vs ⟨v.toList ++ operands, labels, code'⟩
    rw [hend, List.append_nil]
  | leaves d v =>
    cases d with
    | zero =>
      show run A vs ⟨_, labels, behindEnd 0 code⟩ = run A vs ⟨_, labels, code'⟩
      rw [hzero, toList_kept]
    | succ d =>
      simp only [Outcome.exit, resume, List.getElem?_cons_succ, List.drop_succ_cons, hsucc d]
  | traps | fails => rfl

/-- A body ends in front of the end of its frame. -/
theorem resume_finish {result : Option ValType} (o : Outcome Nat) :
    resume A vs [] (⟨result.toList.length, operands⟩ :: labels) (.finish :: code) o =
      resume A vs operands labels code (o.exit result) :=
  resume_exit (fun _ => run_of_next rfl) rfl (fun _ => rfl) o

/-- The first body of an if ends in front of the second, which is passed over. -/
theorem resume_alternative {result : Option ValType} (elseBody : Node) (o : Outcome Nat) :
    resume A vs [] (⟨result.toList.length, operands⟩ :: labels)
        (.alternative :: (elseBody.operators ++ .finish :: code)) o =
      resume A vs operands labels code (o.exit result) := by
  have hskip (d : Nat) : behindEnd d (.alternative :: (elseBody.operators ++ .finish :: code)) =
      behindEnd d (.finish :: code) := skips_behindEnd.operators d _ elseBody
  refine resume_exit (fun values => ?_) (hskip 0) (fun d => hskip (d + 1)) o
  exact (run_of_next rfl).trans (by rw [skips_behindEnd.operators 0 _ elseBody])

/-! ## Operations, branches and ifs -/

variable {label : Label} {outer : List Label} {thenBody elseBody : Node} {result : Option ValType}

/-- An operation leaves its result, or there is none. -/
theorem run_numeric_eq_resume (op : MachineOp) (a b : Value) :
    run A vs ⟨b :: a :: operands, label :: outer, .numeric op :: code⟩ =
      resume A vs operands (label :: outer) code
        (.ofOperator A op.arith op.valType (some a) (some b)) := by
  cases hv : A.apply op.arith op.valType a b with
  | some v =>
    rw [Outcome.ofOperator, hv]
    exact run_numeric hv
  | none =>
    rw [Outcome.ofOperator, hv]
    exact run_numeric_trap hv

/-- A branch leaves its frame with what is on top, if that is as much as the frame gives back. -/
theorem run_branch_eq_resume {depth : Nat} {target : Label} (v : Option Value)
    (h : (label :: outer)[depth]? = some target) (hv : target.arity ≤ v.toList.length) :
    run A vs ⟨v.toList ++ operands, label :: outer, .branch depth :: code⟩ =
      resume A vs operands (label :: outer) code (.leaves depth v) := by
  have hlength : target.arity ≤ (v.toList ++ operands).length := by
    rw [List.length_append]
    exact Nat.le_add_right_of_le hv
  rw [run_branch h hlength, List.take_append_of_le_length hv]
  simp only [resume, h]

theorem behindEnd_ifThen (result : Option ValType) (thenBody : Node) (d : Nat) :
    behindEnd d (.cond result :: (thenBody.operators ++ .finish :: code)) = behindEnd d code := by
  rw [skips_behindEnd.cond, skips_behindEnd.operators (d + 1) _ thenBody, skips_behindEnd.finish]

theorem behindEnd_ifElse (result : Option ValType) (thenBody elseBody : Node) (d : Nat) :
    behindEnd d (.cond result :: (thenBody.operators ++ .alternative ::
      (elseBody.operators ++ .finish :: code))) = behindEnd d code := by
  rw [skips_behindEnd.cond, skips_behindEnd.operators (d + 1) _ thenBody,
    skips_behindEnd.alternative, skips_behindEnd.operators (d + 1) _ elseBody,
    skips_behindEnd.finish]

/-- An if runs its body or passes over it. -/
theorem run_ifThen (n : Int32)
    (hthen : ∀ code, run A vs ⟨[], ⟨0, operands⟩ :: label :: outer, thenBody.operators ++ code⟩ =
      resume A vs [] (⟨0, operands⟩ :: label :: outer) code (thenBody.eval A vs)) :
    run A vs ⟨.i32 n :: operands, label :: outer,
        .cond none :: (thenBody.operators ++ .finish :: code)⟩ =
      resume A vs operands (label :: outer) code
        (.choose ((thenBody.eval A vs).exit none) (.ends none) (some (.i32 n))) := by
  by_cases hn : n = 0
  · subst hn
    rw [run_cond_zero, skips_otherwise.operators 0 _ thenBody]
    exact run_of_next rfl
  · rw [Outcome.choose_of_ne hn]
    refine (run_cond hn none).trans ?_
    refine (hthen _).trans ?_
    show resume A vs [] (⟨(none : Option ValType).toList.length, operands⟩ :: _) _ _ = _
    exact resume_finish _

/-- An if runs one of its bodies and passes over the other. -/
theorem run_ifElse (n : Int32)
    (hthen : ∀ code,
      run A vs ⟨[], ⟨result.toList.length, operands⟩ :: label :: outer,
          thenBody.operators ++ code⟩ =
        resume A vs [] (⟨result.toList.length, operands⟩ :: label :: outer) code
          (thenBody.eval A vs))
    (helse : ∀ code,
      run A vs ⟨[], ⟨result.toList.length, operands⟩ :: label :: outer,
          elseBody.operators ++ code⟩ =
        resume A vs [] (⟨result.toList.length, operands⟩ :: label :: outer) code
          (elseBody.eval A vs)) :
    run A vs ⟨.i32 n :: operands, label :: outer,
        .cond result :: (thenBody.operators ++ .alternative ::
          (elseBody.operators ++ .finish :: code))⟩ =
      resume A vs operands (label :: outer) code
        (.choose ((thenBody.eval A vs).exit result) ((elseBody.eval A vs).exit result)
          (some (.i32 n))) := by
  by_cases hn : n = 0
  · subst hn
    rw [run_cond_zero, skips_otherwise.operators 0 _ thenBody]
    refine (helse _).trans ?_
    exact resume_finish _
  · rw [run_cond hn, hthen, Outcome.choose_of_ne hn]
    exact resume_alternative elseBody _

end

/-! ## Labels and results -/

/-- The labels carry what the results of the innermost frames ask for. -/
def Carries (labels : List Label) (results : Results) : Prop :=
  ∀ (d : Nat) (result : Option ValType), results[d]? = some result →
    ∃ label, labels[d]? = some label ∧ label.arity = result.toList.length

theorem Carries.enter {labels : List Label} {results : Results} (h : Carries labels results)
    (result : Option ValType) (operands : List Value) :
    Carries (⟨result.toList.length, operands⟩ :: labels) (result :: results) := by
  intro d result' hd
  cases d with
  | zero =>
    cases hd
    exact ⟨_, rfl, rfl⟩
  | succ d => exact h d result' hd

end Wasm.Execution

/-! ## Nodes -/

namespace Node

variable {A : Arithmetic} {vs : List Value} {slots : List ValType}

mutual

/-- Running the operators of a node that has an effect comes to what the node evaluates to. -/
theorem run_operators (hvs : vs.map Value.type = slots) (n : Node) {results : Results} {e : Effect}
    (h : n.HasEffect slots results e) (operands : List Value) {label : Label} {outer : List Label}
    (hl : Carries (label :: outer) results) (code : List Operator) :
    run A vs ⟨operands, label :: outer, n.operators ++ code⟩ =
      resume A vs operands (label :: outer) code (n.eval A vs) := by
  cases h with
  | constI32 => exact run_of_next rfl
  | constF64 => exact run_of_next rfl
  | @localGet _ index _ t hi _ =>
    subst hvs
    rw [List.getElem?_map] at hi
    obtain ⟨v, hv, rfl⟩ := Option.map_eq_some_iff.1 hi
    rw [eval, Outcome.ofSlot, hv]
    exact run_localGet hv
  | @block _ type children label' hc =>
    rw [operators_block, List.cons_append, List.append_assoc, run_of_next rfl,
      run_operatorsAll hvs children hc [] (hl.enter type.valType? operands)]
    exact resume_finish _
  | @binary _ op lhs rhs _ _ hlt hlf hrt hrf =>
    have hls := lhs.eval_sound (A := A) hvs hlt
    have hrs := rhs.eval_sound (A := A) hvs hrt
    rw [operators_binary, List.append_assoc, List.append_assoc, run_operators hvs lhs hlt _ hl]
    refine resume_andThen (fun d => skips_behindEnd.operators d _ rhs) ?_
    intro a ha
    rw [ha] at hls
    obtain ⟨a, rfl⟩ := hls.eq_some_of_ends hlf
    rw [run_operators hvs rhs hrt _ hl]
    refine resume_andThen (fun d => rfl) ?_
    intro b hb
    rw [hb] at hrs
    obtain ⟨b, rfl⟩ := hrs.eq_some_of_ends hrf
    exact run_numeric_eq_resume op a b
  | @breakTo _ label' depth hd =>
    obtain ⟨target, ht, ha⟩ := hl _ _ hd
    exact run_branch_eq_resume none ht (Nat.le_of_eq ha)
  | @breakWith _ label' depth result value e hd hv hvf =>
    obtain ⟨target, ht, ha⟩ := hl _ _ hd
    have hs := value.eval_sound (A := A) hvs hv
    rw [operators_breakWith, List.append_assoc, run_operators hvs value hv _ hl]
    refine resume_andThen (fun d => rfl) ?_
    intro v he
    rw [he] at hs
    have hle : target.arity ≤ v.toList.length := by
      rw [ha]
      rcases hvf with rfl | hf
      · exact Nat.zero_le _
      · rw [← hs.type_of_ends hf]
        cases v <;> exact Nat.le_refl _
    exact run_branch_eq_resume v ht hle
  | @ifThen _ type condition thenBody _ _ htype hc hcf ht htf =>
    have hs := condition.eval_sound (A := A) hvs hc
    rw [operators_ifThen, eval, htype, List.append_assoc, run_operators hvs condition hc _ hl,
      List.cons_append, List.append_assoc]
    refine resume_andThen (behindEnd_ifThen none thenBody) ?_
    intro v he
    rw [he] at hs
    obtain ⟨n, rfl⟩ := Outcome.Sound.eq_i32_of_ends hs hcf
    apply run_ifThen n
    intro code
    exact run_operators hvs thenBody ht [] (hl.enter none operands) code
  | @ifElse _ type condition thenBody elseBody _ _ _ hc hcf hlt hlf hrt hrf =>
    have hs := condition.eval_sound (A := A) hvs hc
    have hl' := hl.enter type.valType? operands
    rw [operators_ifElse, eval, List.append_assoc, run_operators hvs condition hc _ hl,
      List.cons_append, List.append_assoc, List.cons_append, List.append_assoc]
    refine resume_andThen (behindEnd_ifElse type.valType? thenBody elseBody) ?_
    intro v he
    rw [he] at hs
    obtain ⟨n, rfl⟩ := Outcome.Sound.eq_i32_of_ends hs hcf
    apply run_ifElse n
    · intro code
      exact run_operators hvs thenBody hlt [] hl' code
    · intro code
      exact run_operators hvs elseBody hrt [] hl' code
  | @drop _ value t hv =>
    have hs := value.eval_sound (A := A) hvs hv
    rw [operators_drop, List.append_assoc, run_operators hvs value hv _ hl]
    refine resume_andThen (fun d => rfl) ?_
    intro v he
    rw [he] at hs
    obtain ⟨v, rfl⟩ := hs.eq_some_of_ends (Effect.fits_ofResult (some t))
    exact run_of_next rfl

/-- Running the operators of nodes in sequence comes to what the sequence evaluates to. -/
theorem run_operatorsAll (hvs : vs.map Value.type = slots) (ns : List Node) {results : Results}
    {result : Option ValType} (h : EndsWith slots results ns result) (operands : List Value)
    {label : Label} {outer : List Label} (hl : Carries (label :: outer) results)
    (code : List Operator) :
    run A vs ⟨operands, label :: outer, operatorsAll ns ++ code⟩ =
      resume A vs operands (label :: outer) code (evalAll A vs ns) := by
  cases h with
  | nil => rfl
  | @last _ n e _ hn hf =>
    rw [operatorsAll_cons, operatorsAll_nil, List.append_nil, evalAll]
    exact run_operators hvs n hn operands hl code
  | @cons _ n e ns _ hn hf hns =>
    have hs := n.eval_sound (A := A) hvs hn
    have hrest := run_operatorsAll hvs ns hns operands hl code
    rw [operatorsAll_cons, List.append_assoc, run_operators hvs n hn _ hl]
    cases ns with
    | nil => rfl
    | cons next ns =>
      refine resume_andThen (fun d => skips_behindEnd.operatorsAll d code _) ?_
      intro v he
      rw [he] at hs
      obtain rfl := Option.map_eq_none_iff.1 (hs.type_of_ends hf)
      exact hrest

end

end Node

end TreeWasm
