-- SUMMARY: Which trees are refused, and why: the first faulty site of a walk over the tree decides.
import TreeWasm.Proofs.Lowering.MachineType

/-!
# Faulty sites

Lowering looks at a tree in some places only: at types, operators, labels, conditions and kinds that
have no code. `Instruction.sites` lists these places in the order in which they are come to, and
`Site.fault?` says what is wrong with one, if anything is. Neither lowers anything. A tree is
accepted if none of its sites is faulty, and refused for the first that is
(`Instruction.lower_fault`).
-/

namespace TreeWasm

/-! ## Sites -/

/-- The labels of open frames, innermost first. Frames of ifs have none. -/
def FrameStack.labels (s : FrameStack) : List (Option String) := s.frames.map Frame.label?

/-- A place where a tree can be at fault. -/
inductive Site where
  /-- The type of a slot that is read, or of a block. -/
  | type (type : ValueType)
  /-- An operator with the type that it works on. -/
  | operator (op : Arith) (type : ValueType)
  /-- A label that a break names, with the labels of the frames around the break. -/
  | label (label : String) (around : List (Option String))
  /-- The machine type of the condition of an if. -/
  | condition (type : MachineType)
  /-- An instruction of a kind without code. -/
  | codeless (kind : Kind)

/-- The operator is defined for the type: integers have all operators, floating-point numbers all
but the remainder, and other types none. -/
def Arith.isDefinedFor (op : Arith) : ValueType → Bool
  | .int32 | .int64 => true
  | .float32 | .float64 => op != .mod
  | _ => false

namespace Site

/-- What is wrong with a site. The frames around a break are counted in 32 bits. -/
def fault? : Site → Option Failure
  | .type t =>
    if t = .nothing then
      some (.typeMismatch "a value type with a machine representation" "Nothing" "type mapping")
    else none
  | .operator op t => if op.isDefinedFor t then none else some (.unsupported op t)
  | .label name around =>
    if some name ∈ around then none
    else some (.notFound name
      ("the " ++ toString (UInt32.ofNat around.length).toNat ++ " enclosing block(s) of a break"))
  | .condition t =>
    if t = .word32 ∨ t = .unreachable then none
    else some (.typeMismatch "i32" t.name "if condition")
  | .codeless kind => some (.notImplemented kind.name)

/-- Trees are at fault, never the stack of frames. -/
theorem fault?_ne_unreachable (s : Site) (context : String) :
    s.fault? ≠ some (.unreachable context) := by
  cases s <;> simp [fault?]

/-- What is wrong with the first faulty site. -/
def firstFault? (sites : List Site) : Option Failure := sites.findSome? fault?

@[simp] theorem firstFault?_nil : firstFault? [] = none := rfl

@[simp] theorem firstFault?_cons (s : Site) (sites : List Site) :
    firstFault? (s :: sites) = s.fault?.or (firstFault? sites) := by
  unfold firstFault?
  cases h : s.fault? <;> simp [h]

@[simp] theorem firstFault?_append (before after : List Site) :
    firstFault? (before ++ after) = (firstFault? before).or (firstFault? after) :=
  List.findSome?_append

end Site

namespace Instruction

mutual

/-- The sites of an instruction inside frames with the given labels, in the order of the walk. What
a codeless instruction consists of is never come to. -/
def sites (around : List (Option String)) : Instruction → List Site
  | .constInt32 _ | .constFloat64 _ | .constBool _ => []
  | .localGet _ type => [.type type]
  | .block label type children => .type type :: sitesAll (some label :: around) children
  | .binaryOp op type lhs rhs => sites around lhs ++ (sites around rhs ++ [.operator op type])
  | .breakTo label => [.label label around]
  | .breakWith label value => sites around value ++ [.label label around]
  | .ifThen condition thenBody =>
    sites around condition ++ .condition condition.machineType :: sites (none :: around) thenBody
  | .ifElse condition thenBody elseBody =>
    sites around condition ++ .condition condition.machineType ::
      (sites (none :: around) thenBody ++ sites (none :: around) elseBody)
  | .storeLocal .. => [.codeless .storeLocal]
  | .propertyAccess .. => [.codeless .propertyAccess]
  | .propertyAssignment .. => [.codeless .propertyAssignment]
  | .containerAlloc _ => [.codeless .containerAlloc]
  | .stackAlloc _ => [.codeless .stackAlloc]
  | .stackFree _ => [.codeless .stackFree]

/-- The sites of instructions in sequence. -/
def sitesAll (around : List (Option String)) : List Instruction → List Site
  | [] => []
  | i :: is => sites around i ++ sitesAll around is

end

theorem sitesAll_append (around : List (Option String)) (is ks : List Instruction) :
    sitesAll around (is ++ ks) = sitesAll around is ++ sitesAll around ks := by
  induction is with
  | nil => rfl
  | cons i is ih => simp [sitesAll, ih]

end Instruction

/-! ## Failures of the checks -/

/-- The failure that an outcome is, if it is one. -/
def failure? : Except Refusal α → Option Failure
  | .ok _ => none
  | .error refusal => some refusal.failure

/-- What comes after a step can fail only if the step does not. -/
theorem failure?_bind {x : Except Refusal α} {k : α → Except Refusal β} {rest : Option Failure}
    (h : ∀ a, x = .ok a → failure? (k a) = rest) : failure? (x >>= k) = (failure? x).or rest := by
  cases x with
  | error refusal => rfl
  | ok a => exact h a rfl

/-- The last step decides if what comes after it cannot fail. -/
theorem failure?_bind_pure (x : Except Refusal α) (f : α → β) :
    failure? (do return f (← x)) = failure? x := by
  cases x <;> rfl

theorem failure?_machineType (t : ValueType) : failure? t.machineType = (Site.type t).fault? := by
  cases t <;> rfl

theorem failure?_machineOp (op : Arith) (t : ValueType) :
    failure? (op.machineOp t) = (Site.operator op t).fault? := by
  cases op <;> cases t <;> rfl

theorem failure?_distance (label : String) (frames : FrameStack) :
    failure? (frames.distance label) = (Site.label label frames.labels).fault? := by
  have hmem : some label ∈ frames.labels ↔ ∃ f ∈ frames.frames, f.label? = some label := by
    simp [FrameStack.labels]
  unfold FrameStack.distance
  cases h : frames.frames.findIdx? (·.label? == some label) with
  | some d =>
    have hfound : some label ∈ frames.labels := by
      obtain ⟨hd, hlabel, -⟩ := List.findIdx?_eq_some_iff_getElem.1 h
      exact hmem.2 ⟨_, List.getElem_mem hd, by simpa using hlabel⟩
    simp [failure?, Site.fault?, hfound]
  | none =>
    have hmissing : some label ∉ frames.labels := by
      intro hfound
      obtain ⟨f, hf, hlabel⟩ := hmem.1 hfound
      simpa [hlabel] using List.findIdx?_eq_none_iff.1 h f hf
    have hdepth : UInt32.ofNat frames.labels.length = frames.depth := by
      simp [FrameStack.labels, FrameStack.depth]
    simp only [failure?, Refusal.failure, Site.fault?, hmissing, hdepth, if_false]

theorem failure?_checkCondition (t : MachineType) :
    failure? (Lowering.checkCondition t) = (Site.condition t).fault? := by
  cases t <;> rfl

/-! ## Instructions -/

namespace Instruction

open Site

mutual

/-- An instruction is refused for its first faulty site. -/
theorem failure?_lowerIn (i : Instruction) (frames : FrameStack) :
    failure? (i.lowerIn frames) = firstFault? (i.sites frames.labels) := by
  cases i with
  | constInt32 | constFloat64 | constBool => rfl
  | localGet index type =>
    simp only [lowerIn_localGet, failure?_bind_pure, failure?_machineType, sites, firstFault?_cons,
      firstFault?_nil, Option.or_none]
  | block label type children =>
    simp only [lowerIn_block, sites, firstFault?_cons, ← failure?_machineType]
    apply failure?_bind
    intro m _
    rw [failure?_bind_pure]
    exact failure?_lowerAllIn children (frames.enter (.block label))
  | binaryOp op type lhs rhs =>
    simp only [lowerIn_binaryOp, sites, firstFault?_append, ← failure?_lowerIn lhs frames,
      ← failure?_lowerIn rhs frames]
    apply failure?_bind
    intro l _
    apply failure?_bind
    intro r _
    simp only [failure?_bind_pure, failure?_machineOp, firstFault?_cons, firstFault?_nil,
      Option.or_none]
  | breakTo label =>
    simp only [lowerIn_breakTo, failure?_bind_pure, failure?_distance, sites, firstFault?_cons,
      firstFault?_nil, Option.or_none]
  | breakWith label value =>
    simp only [lowerIn_breakWith, sites, firstFault?_append, ← failure?_lowerIn value frames]
    apply failure?_bind
    intro v _
    simp only [failure?_bind_pure, failure?_distance, firstFault?_cons, firstFault?_nil,
      Option.or_none]
  | ifThen condition thenBody =>
    simp only [lowerIn_ifThen, sites, firstFault?_append, firstFault?_cons,
      ← failure?_lowerIn condition frames, ← failure?_checkCondition]
    apply failure?_bind
    intro c hc
    -- What is checked is the type of a node, which the tree tells as well.
    rw [condition.type_of_lowerIn hc]
    apply failure?_bind
    intro _ _
    rw [failure?_bind_pure]
    exact failure?_lowerIn thenBody (frames.enter .cond)
  | ifElse condition thenBody elseBody =>
    simp only [lowerIn_ifElse, sites, firstFault?_append, firstFault?_cons,
      ← failure?_lowerIn condition frames, ← failure?_checkCondition]
    apply failure?_bind
    intro c hc
    rw [condition.type_of_lowerIn hc]
    apply failure?_bind
    intro _ _
    show _ = (firstFault? (thenBody.sites (frames.enter .cond).labels)).or _
    rw [← failure?_lowerIn thenBody (frames.enter .cond)]
    apply failure?_bind
    intro t _
    rw [failure?_bind_pure]
    exact failure?_lowerIn elseBody (frames.enter .cond)
  | storeLocal | propertyAccess | propertyAssignment | containerAlloc | stackAlloc | stackFree =>
    rfl

theorem failure?_lowerAllIn (is : List Instruction) (frames : FrameStack) :
    failure? (lowerAllIn frames is) = firstFault? (sitesAll frames.labels is) := by
  cases is with
  | nil => rfl
  | cons i is =>
    simp only [lowerAllIn_cons, sitesAll, firstFault?_append, ← failure?_lowerIn i frames]
    apply failure?_bind
    intro n _
    rw [failure?_bind_pure]
    exact failure?_lowerAllIn is frames

end

/-- A tree is accepted under given frames exactly if none of its sites is faulty. Otherwise it is
refused, and the reason is what is wrong with the first site that is faulty. -/
theorem lower_fault (i : Instruction) (frames : FrameStack) :
    ((∃ n, (i.lower.on frames).1 = .ok n) ↔ ∀ s ∈ i.sites frames.labels, s.fault? = none) ∧
    ∀ failure, (∃ refusal, (i.lower.on frames).1 = .error refusal ∧ refusal.failure = failure) ↔
      ∃ before s after, i.sites frames.labels = before ++ s :: after ∧
        s.fault? = some failure ∧ ∀ t ∈ before, t.fault? = none := by
  have h := i.failure?_lowerIn frames
  rw [i.on_lower frames]
  constructor
  · rw [← List.findSome?_eq_none_iff, ← firstFault?, ← h]
    cases i.lowerIn frames <;> simp [failure?]
  · intro failure
    rw [← List.findSome?_eq_some_iff, ← firstFault?, ← h]
    cases i.lowerIn frames <;> simp [failure?]

/-- A condition is checked before the body behind it is looked at, and after what it consists of. -/
example : firstFault? ((ifThen (.localGet 0 .float64) (.breakTo "out")).sites []) =
    some (.typeMismatch "i32" "f64" "if condition") := by
  decide

end Instruction

end TreeWasm
