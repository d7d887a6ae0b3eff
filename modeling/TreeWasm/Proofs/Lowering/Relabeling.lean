-- SUMMARY: Labels are only names: trees that differ in their labels alone have the same code.
import TreeWasm.Proofs.Lowering.Faults
import TreeWasm.Proofs.Machine.Code

/-!
# Relabeling

A label serves to find a block, and for nothing else. Renaming the labels of a tree, so that
different labels stay different, therefore changes the labels that stand in its node or in its
refusal, and nothing besides (`Instruction.lowerIn_relabel`). The code has no labels, so it stays as
it is (`Node.operators_relabel`).
-/

namespace TreeWasm

/-! ## Renaming -/

namespace Instruction

mutual

/-- The labels of the blocks and of the breaks in a tree. -/
def labels : Instruction → List String
  | .constInt32 _ | .constFloat64 _ | .constBool _ | .localGet .. => []
  | .block label _ children => label :: labelsAll children
  | .binaryOp _ _ lhs rhs => labels lhs ++ labels rhs
  | .breakTo label => [label]
  | .breakWith label value => label :: labels value
  | .ifThen condition thenBody => labels condition ++ labels thenBody
  | .ifElse condition thenBody elseBody => labels condition ++ (labels thenBody ++ labels elseBody)
  | .storeLocal _ value => labels value
  | .propertyAccess pointer _ _ => labels pointer
  | .propertyAssignment pointer _ value => labels pointer ++ labels value
  | .containerAlloc _ | .stackAlloc _ | .stackFree _ => []

def labelsAll : List Instruction → List String
  | [] => []
  | i :: is => labels i ++ labelsAll is

end

mutual

/-- The tree with its labels renamed. -/
def relabel (ρ : String → String) : Instruction → Instruction
  | .constInt32 value => .constInt32 value
  | .constFloat64 value => .constFloat64 value
  | .constBool value => .constBool value
  | .localGet index type => .localGet index type
  | .block label type children => .block (ρ label) type (relabelAll ρ children)
  | .binaryOp op type lhs rhs => .binaryOp op type (relabel ρ lhs) (relabel ρ rhs)
  | .breakTo label => .breakTo (ρ label)
  | .breakWith label value => .breakWith (ρ label) (relabel ρ value)
  | .ifThen condition thenBody => .ifThen (relabel ρ condition) (relabel ρ thenBody)
  | .ifElse condition thenBody elseBody =>
    .ifElse (relabel ρ condition) (relabel ρ thenBody) (relabel ρ elseBody)
  | .storeLocal index value => .storeLocal index (relabel ρ value)
  | .propertyAccess pointer offset type => .propertyAccess (relabel ρ pointer) offset type
  | .propertyAssignment pointer offset value =>
    .propertyAssignment (relabel ρ pointer) offset (relabel ρ value)
  | .containerAlloc bytes => .containerAlloc bytes
  | .stackAlloc amount => .stackAlloc amount
  | .stackFree amount => .stackFree amount

def relabelAll (ρ : String → String) : List Instruction → List Instruction
  | [] => []
  | i :: is => relabel ρ i :: relabelAll ρ is

end

end Instruction

namespace Node

mutual

/-- The node with its labels renamed. -/
def relabel (ρ : String → String) : Node → Node
  | .constI32 value => .constI32 value
  | .constF64 value => .constF64 value
  | .localGet index type => .localGet index type
  | .block label type children => .block (ρ label) type (relabelAll ρ children)
  | .binary op lhs rhs => .binary op (relabel ρ lhs) (relabel ρ rhs)
  | .breakTo label depth => .breakTo (ρ label) depth
  | .breakWith label depth value => .breakWith (ρ label) depth (relabel ρ value)
  | .ifThen type condition thenBody => .ifThen type (relabel ρ condition) (relabel ρ thenBody)
  | .ifElse type condition thenBody elseBody =>
    .ifElse type (relabel ρ condition) (relabel ρ thenBody) (relabel ρ elseBody)
  | .drop value => .drop (relabel ρ value)

def relabelAll (ρ : String → String) : List Node → List Node
  | [] => []
  | n :: ns => relabel ρ n :: relabelAll ρ ns

end

end Node

/-- The refusal with its label renamed, if it is for a label. -/
def Refusal.relabel (ρ : String → String) : Refusal → Refusal
  | .unknownLabel label enclosing => .unknownLabel (ρ label) enclosing
  | refusal => refusal

/-- The failure with its label renamed, if it is that a label was not found. -/
def Failure.relabel (ρ : String → String) : Failure → Failure
  | .notFound label context => .notFound (ρ label) context
  | failure => failure

def Frame.relabel (ρ : String → String) (f : Frame) : Frame :=
  match f.kind with
  | .block label => ⟨.block (ρ label), f.depth⟩
  | .cond => f

def FrameStack.relabel (ρ : String → String) (s : FrameStack) : FrameStack :=
  ⟨s.frames.map (Frame.relabel ρ)⟩

/-- An outcome with its labels renamed, in what was accepted as the given function does it. -/
def relabelOutcome (ρ : String → String) (f : α → β) : Except Refusal α → Except Refusal β
  | .ok a => .ok (f a)
  | .error refusal => .error (refusal.relabel ρ)

/-- The renaming keeps the labels in a list apart. -/
def KeepsApart (ρ : String → String) (labels : List String) : Prop :=
  ∀ a ∈ labels, ∀ b ∈ labels, ρ a = ρ b → a = b

instance (ρ : String → String) (labels : List String) : Decidable (KeepsApart ρ labels) :=
  inferInstanceAs (Decidable (∀ a ∈ labels, ∀ b ∈ labels, ρ a = ρ b → a = b))

variable {ρ : String → String}

theorem Refusal.failure_relabel (ρ : String → String) (r : Refusal) :
    (r.relabel ρ).failure = r.failure.relabel ρ := by
  cases r <;> rfl

/-! ## Nodes -/

namespace Node

@[simp] theorem type_relabel (ρ : String → String) (n : Node) : (n.relabel ρ).type = n.type := by
  cases n <;> rfl

mutual

/-- Code has no labels. -/
theorem operators_relabel (ρ : String → String) :
    ∀ n : Node, (n.relabel ρ).operators = n.operators
  | .constI32 _ | .constF64 _ | .localGet .. | .breakTo .. => rfl
  | .block _ _ children => by
    simp only [relabel, operators_block, operatorsAll_relabelAll ρ children]
  | .binary _ lhs rhs => by
    simp only [relabel, operators_binary, operators_relabel ρ lhs, operators_relabel ρ rhs]
  | .breakWith _ _ value => by
    simp only [relabel, operators_breakWith, operators_relabel ρ value]
  | .ifThen _ condition thenBody => by
    simp only [relabel, operators_ifThen, operators_relabel ρ condition,
      operators_relabel ρ thenBody]
  | .ifElse _ condition thenBody elseBody => by
    simp only [relabel, operators_ifElse, operators_relabel ρ condition,
      operators_relabel ρ thenBody, operators_relabel ρ elseBody]
  | .drop value => by
    simp only [relabel, operators_drop, operators_relabel ρ value]

theorem operatorsAll_relabelAll (ρ : String → String) :
    ∀ ns : List Node, operatorsAll (relabelAll ρ ns) = operatorsAll ns
  | [] => rfl
  | n :: ns => by
    simp only [relabelAll, operatorsAll_cons, operators_relabel ρ n, operatorsAll_relabelAll ρ ns]

end

end Node

theorem Lowering.discard_relabel (ρ : String → String) (body : Node) :
    discard (body.relabel ρ) = (discard body).relabel ρ := by
  unfold discard
  rw [Node.type_relabel]
  cases body.type.valType? <;> rfl

/-! ## Frames -/

theorem findIdx?_congr {p q : α → Bool} {xs : List α} (h : ∀ x ∈ xs, p x = q x) :
    xs.findIdx? p = xs.findIdx? q := by
  induction xs with
  | nil => rfl
  | cons x xs ih =>
    obtain ⟨hx, hxs⟩ := List.forall_mem_cons.1 h
    rw [List.findIdx?_cons, List.findIdx?_cons, hx, ih hxs]

theorem Frame.label?_relabel (ρ : String → String) (f : Frame) :
    (f.relabel ρ).label? = f.label?.map ρ := by
  rcases f with ⟨_ | _, _⟩ <;> rfl

namespace FrameStack

theorem relabel_enter_block (ρ : String → String) (s : FrameStack) (label : String) :
    (s.enter (.block label)).relabel ρ = (s.relabel ρ).enter (.block (ρ label)) := by
  simp [relabel, enter, Frame.relabel, depth]

theorem relabel_enter_cond (ρ : String → String) (s : FrameStack) :
    (s.enter .cond).relabel ρ = (s.relabel ρ).enter .cond := by
  simp [relabel, enter, Frame.relabel, depth]

/-- The labels of the open blocks are among the known ones. -/
def LabelsIn (known : List String) (s : FrameStack) : Prop :=
  ∀ label, some label ∈ s.labels → label ∈ known

variable {known : List String} {s : FrameStack}

theorem labelsIn_empty (known : List String) : LabelsIn known {} := nofun

theorem LabelsIn.enter_block (h : s.LabelsIn known) {label : String} (hl : label ∈ known) :
    (s.enter (.block label)).LabelsIn known := by
  intro label' hmem
  rcases List.mem_cons.1 hmem with heq | hmem
  · cases heq
    exact hl
  · exact h label' hmem

theorem LabelsIn.enter_cond (h : s.LabelsIn known) : (s.enter .cond).LabelsIn known := by
  intro label hmem
  rcases List.mem_cons.1 hmem with heq | hmem
  · cases heq
  · exact h label hmem

/-- Renamed labels lead where they led before. -/
theorem distance_relabel (hρ : KeepsApart ρ known) (hs : s.LabelsIn known) {label : String}
    (hl : label ∈ known) :
    (s.relabel ρ).distance (ρ label) = relabelOutcome ρ id (s.distance label) := by
  have hfind : (s.relabel ρ).frames.findIdx? (·.label? == some (ρ label)) =
      s.frames.findIdx? (·.label? == some label) := by
    unfold relabel
    rw [List.findIdx?_map]
    apply findIdx?_congr
    intro f hf
    have hknown : ∀ label', f.label? = some label' → label' ∈ known := fun label' hlabel' =>
      hs label' (hlabel' ▸ List.mem_map_of_mem hf)
    show ((f.relabel ρ).label? == some (ρ label)) = (f.label? == some label)
    rw [Frame.label?_relabel]
    cases hlabel : f.label? with
    | none => rfl
    | some label' =>
      have heq : ρ label' = ρ label ↔ label' = label :=
        ⟨hρ label' (hknown label' hlabel) label hl, congrArg ρ⟩
      rw [Bool.eq_iff_iff]
      simp [heq]
  have hdepth : (s.relabel ρ).depth = s.depth := congrArg UInt32.ofNat (List.length_map _)
  unfold distance
  rw [hfind, hdepth]
  cases s.frames.findIdx? (·.label? == some label) <;> rfl

end FrameStack

/-! ## Outcomes -/

section

variable {α β γ δ : Type}

theorem relabelOutcome_bind {f : α → β} {g : γ → δ} {x : Except Refusal α}
    {k : α → Except Refusal γ} {k' : β → Except Refusal δ}
    (h : ∀ a, k' (f a) = relabelOutcome ρ g (k a)) :
    relabelOutcome ρ f x >>= k' = relabelOutcome ρ g (x >>= k) := by
  cases x with
  | error refusal => rfl
  | ok a => exact h a

/-- The same behind a step in which no labels occur. -/
theorem relabelOutcome_bind_of_eq {g : γ → δ} {x : Except Refusal α} {k : α → Except Refusal γ}
    {k' : α → Except Refusal δ} (hx : relabelOutcome ρ id x = x)
    (h : ∀ a, k' a = relabelOutcome ρ g (k a)) : x >>= k' = relabelOutcome ρ g (x >>= k) := by
  have hbind := relabelOutcome_bind (x := x) (f := id) h
  rw [hx] at hbind
  exact hbind

theorem relabelOutcome_machineType (ρ : String → String) (t : ValueType) :
    relabelOutcome ρ id t.machineType = t.machineType := by
  cases t <;> rfl

theorem relabelOutcome_machineOp (ρ : String → String) (op : Arith) (t : ValueType) :
    relabelOutcome ρ id (op.machineOp t) = op.machineOp t := by
  cases op <;> cases t <;> rfl

theorem relabelOutcome_checkCondition (ρ : String → String) (t : MachineType) :
    relabelOutcome ρ id (Lowering.checkCondition t) = Lowering.checkCondition t := by
  cases t <;> rfl

end

namespace Instruction

variable {known : List String} {frames : FrameStack}

mutual

/-- A renaming that keeps labels apart commutes with lowering, if the frames around are renamed
alike. -/
theorem lowerIn_relabel (i : Instruction) {frames : FrameStack} (hρ : KeepsApart ρ known)
    (hframes : frames.LabelsIn known) (hi : ∀ label ∈ i.labels, label ∈ known) :
    (i.relabel ρ).lowerIn (frames.relabel ρ) =
      relabelOutcome ρ (Node.relabel ρ) (i.lowerIn frames) := by
  cases i with
  | constInt32 | constFloat64 | constBool => rfl
  | localGet index type =>
    simp only [relabel, lowerIn_localGet]
    exact relabelOutcome_bind_of_eq (relabelOutcome_machineType ρ type) fun _ => rfl
  | block label type children =>
    obtain ⟨hlabel, hchildren⟩ := List.forall_mem_cons.1 hi
    have hall := lowerAllIn_relabelAll children hρ (hframes.enter_block hlabel) hchildren
    rw [FrameStack.relabel_enter_block] at hall
    simp only [relabel, lowerIn_block, hall]
    apply relabelOutcome_bind_of_eq (relabelOutcome_machineType ρ type)
    intro m
    exact relabelOutcome_bind fun _ => rfl
  | binaryOp op type lhs rhs =>
    obtain ⟨hl, hr⟩ := List.forall_mem_append.1 hi
    simp only [relabel, lowerIn_binaryOp, lowerIn_relabel lhs hρ hframes hl,
      lowerIn_relabel rhs hρ hframes hr]
    apply relabelOutcome_bind
    intro l
    apply relabelOutcome_bind
    intro r
    exact relabelOutcome_bind_of_eq (relabelOutcome_machineOp ρ op type) fun _ => rfl
  | breakTo label =>
    have hlabel := hi label (List.mem_singleton_self label)
    simp only [relabel, lowerIn_breakTo, FrameStack.distance_relabel hρ hframes hlabel]
    exact relabelOutcome_bind fun _ => rfl
  | breakWith label value =>
    obtain ⟨hlabel, hvalue⟩ := List.forall_mem_cons.1 hi
    simp only [relabel, lowerIn_breakWith, lowerIn_relabel value hρ hframes hvalue,
      FrameStack.distance_relabel hρ hframes hlabel]
    apply relabelOutcome_bind
    intro v
    exact relabelOutcome_bind fun _ => rfl
  | ifThen condition thenBody =>
    obtain ⟨hc, ht⟩ := List.forall_mem_append.1 hi
    have hthen := lowerIn_relabel thenBody hρ hframes.enter_cond ht
    rw [FrameStack.relabel_enter_cond] at hthen
    simp only [relabel, lowerIn_ifThen, lowerIn_relabel condition hρ hframes hc, hthen]
    apply relabelOutcome_bind
    intro c
    rw [Node.type_relabel]
    apply relabelOutcome_bind_of_eq (relabelOutcome_checkCondition ρ c.type)
    intro _
    apply relabelOutcome_bind
    intro t
    rw [Lowering.discard_relabel]
    rfl
  | ifElse condition thenBody elseBody =>
    obtain ⟨hc, hbodies⟩ := List.forall_mem_append.1 hi
    obtain ⟨ht, he⟩ := List.forall_mem_append.1 hbodies
    have hthen := lowerIn_relabel thenBody hρ hframes.enter_cond ht
    have helse := lowerIn_relabel elseBody hρ hframes.enter_cond he
    rw [FrameStack.relabel_enter_cond] at hthen helse
    simp only [relabel, lowerIn_ifElse, lowerIn_relabel condition hρ hframes hc, hthen, helse]
    apply relabelOutcome_bind
    intro c
    rw [Node.type_relabel]
    apply relabelOutcome_bind_of_eq (relabelOutcome_checkCondition ρ c.type)
    intro _
    apply relabelOutcome_bind
    intro t
    apply relabelOutcome_bind
    intro e
    rw [Node.type_relabel, Node.type_relabel]
    rfl
  | storeLocal | propertyAccess | propertyAssignment | containerAlloc | stackAlloc | stackFree =>
    rfl

theorem lowerAllIn_relabelAll (is : List Instruction) {frames : FrameStack}
    (hρ : KeepsApart ρ known) (hframes : frames.LabelsIn known)
    (his : ∀ label ∈ labelsAll is, label ∈ known) :
    lowerAllIn (frames.relabel ρ) (relabelAll ρ is) =
      relabelOutcome ρ (Node.relabelAll ρ) (lowerAllIn frames is) := by
  cases is with
  | nil => rfl
  | cons i is =>
    obtain ⟨hi, his⟩ := List.forall_mem_append.1 his
    simp only [relabelAll, lowerAllIn_cons, lowerIn_relabel i hρ hframes hi,
      lowerAllIn_relabelAll is hρ hframes his]
    apply relabelOutcome_bind
    intro n
    exact relabelOutcome_bind fun _ => rfl

end

/-- Labels are only names. If a renaming keeps the labels of a tree apart, the renamed tree is
accepted if the tree is, and refused if the tree is. Its node has the types and the depths of the
node of the tree, the labels are renamed, and the code is the same byte for byte. A refusal is the
same but for the label that was not found. The empty label is no exception to any of this: whatever
the label, it leads to the innermost block that carries it, and never to an if. -/
theorem lowerRoot_relabel (i : Instruction) {ρ : String → String} (hρ : KeepsApart ρ i.labels) :
    ((∃ n, (i.relabel ρ).lowerRoot = .ok n) ↔ ∃ n, i.lowerRoot = .ok n) ∧
    (∀ n, i.lowerRoot = .ok n →
      (i.relabel ρ).lowerRoot = .ok (n.relabel ρ) ∧ (n.relabel ρ).type = n.type ∧
      ∀ locals, ((n.relabel ρ).code locals).encode = (n.code locals).encode) ∧
    (∀ refusal, i.lowerRoot = .error refusal →
      (i.relabel ρ).lowerRoot = .error (refusal.relabel ρ) ∧
      (refusal.relabel ρ).failure = refusal.failure.relabel ρ) ∧
    ∀ (frames : FrameStack) (label : String) (depth : Nat), frames.distance label = .ok depth ↔
      frames.frames[depth]?.map Frame.kind = some (.block label) ∧
        ∀ d < depth, frames.frames[d]?.map Frame.kind ≠ some (.block label) := by
  have h : (i.relabel ρ).lowerRoot = relabelOutcome ρ (Node.relabel ρ) i.lowerRoot :=
    lowerIn_relabel i hρ (FrameStack.labelsIn_empty i.labels) fun _ hl => hl
  refine ⟨?_, ?_, ?_, FrameStack.distance_iff⟩
  · rw [h]
    cases i.lowerRoot <;> simp [relabelOutcome]
  · intro n hn
    refine ⟨by rw [h, hn]; rfl, n.type_relabel ρ, fun locals => ?_⟩
    unfold Node.code
    rw [n.operators_relabel ρ]
  · intro refusal hr
    exact ⟨by rw [h, hr]; rfl, refusal.failure_relabel ρ⟩

/-- Two blocks without a name, one inside the other, and a block that has one between them. -/
def nameless : Instruction :=
  .block "" .int32
    [.block "a" .never
      [.ifThen (.constBool true)
        (.block "" .never [.breakTo "a", .breakTo ""])],
     .breakWith "" (.constInt32 3)]

/-- Exchanges the empty label and another. -/
def exchange : String → String
  | "" => "a"
  | "a" => ""
  | label => label

theorem nameless_relabel :
    KeepsApart exchange nameless.labels ∧
    nameless.relabel exchange =
      .block "a" .int32
        [.block "" .never
          [.ifThen (.constBool true)
            (.block "a" .never [.breakTo "", .breakTo "a"])],
         .breakWith "a" (.constInt32 3)] ∧
    ∃ n, nameless.lowerRoot = .ok n ∧
      (nameless.relabel exchange).lowerRoot = .ok (n.relabel exchange) := by
  have hapart : KeepsApart exchange nameless.labels := by decide
  obtain ⟨-, haccepted, -, -⟩ := lowerRoot_relabel nameless hapart
  exact ⟨hapart, by rfl, _, rfl, (haccepted _ rfl).1⟩

end Instruction

end TreeWasm
