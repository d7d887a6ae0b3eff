-- SUMMARY: The listing of a lowered node tells everything about it, the depths of its branches included.
import TreeWasm.Proofs.Document.RoundTrip
import TreeWasm.Proofs.Lowering.Relabeling
import TreeWasm.Proofs.Machine.Reading

/-!
# Listings of lowered nodes

The depth of a branch is not shown, but in a node that comes from lowering it follows from the
labels that are: it is what the label resolves to under the frames around
(`Instruction.directed_of_lowerIn`). So the listing of such a node tells the whole node, and with it
the code (`Instruction.lowerRoot_listing_inj`).
-/

namespace TreeWasm

namespace Node

mutual

/-- The node with every branch directed to where its label leads under the frames. -/
def directed (frames : FrameStack) : Node → Node
  | .constI32 value => .constI32 value
  | .constF64 value => .constF64 value
  | .localGet index type => .localGet index type
  | .block label type children =>
    .block label type (directedAll (frames.enter (.block label)) children)
  | .binary op lhs rhs => .binary op (directed frames lhs) (directed frames rhs)
  | .breakTo label _ => .breakTo label ((frames.distance label).toOption.getD 0)
  | .breakWith label _ value =>
    .breakWith label ((frames.distance label).toOption.getD 0) (directed frames value)
  | .ifThen type condition thenBody =>
    .ifThen type (directed frames condition) (directed (frames.enter .cond) thenBody)
  | .ifElse type condition thenBody elseBody =>
    .ifElse type (directed frames condition) (directed (frames.enter .cond) thenBody)
      (directed (frames.enter .cond) elseBody)
  | .drop value => .drop (directed frames value)

def directedAll (frames : FrameStack) : List Node → List Node
  | [] => []
  | node :: nodes => directed frames node :: directedAll frames nodes

end

mutual

/-- Directing a node does not depend on the depths that it has. -/
theorem directed_undirected (frames : FrameStack) :
    ∀ node : Node, node.undirected.directed frames = node.directed frames
  | .constI32 _ | .constF64 _ | .localGet .. | .breakTo .. => rfl
  | .block _ _ children => by simp only [undirected, directed, directedAll_undirectedAll _ children]
  | .binary _ lhs rhs => by
    simp only [undirected, directed, directed_undirected _ lhs, directed_undirected _ rhs]
  | .breakWith _ _ value => by simp only [undirected, directed, directed_undirected _ value]
  | .ifThen _ condition thenBody => by
    simp only [undirected, directed, directed_undirected _ condition,
      directed_undirected _ thenBody]
  | .ifElse _ condition thenBody elseBody => by
    simp only [undirected, directed, directed_undirected _ condition,
      directed_undirected _ thenBody, directed_undirected _ elseBody]
  | .drop value => by simp only [undirected, directed, directed_undirected _ value]

theorem directedAll_undirectedAll (frames : FrameStack) :
    ∀ nodes : List Node, directedAll frames (undirectedAll nodes) = directedAll frames nodes
  | [] => rfl
  | node :: nodes => by
    simp only [undirectedAll, directedAll, directed_undirected _ node,
      directedAll_undirectedAll _ nodes]

end

end Node

namespace Lowering

theorem directed_discard {frames : FrameStack} {body : Node} (h : body.directed frames = body) :
    (discard body).directed frames = discard body := by
  unfold discard
  cases body.type.valType? with
  | none => exact h
  | some _ => exact congrArg Node.drop h

@[simp] theorem labels_discard (body : Node) : (discard body).labels = body.labels := by
  unfold discard
  cases body.type.valType? <;> rfl

@[simp] theorem literals_discard (body : Node) : (discard body).literals = body.literals := by
  unfold discard
  cases body.type.valType? <;> rfl

end Lowering

namespace Instruction

variable {frames : FrameStack}

mutual

/-- Lowering directs every branch to where its label leads. -/
theorem directed_of_lowerIn (i : Instruction) {frames : FrameStack} {a : Node}
    (h : i.lowerIn frames = .ok a) : a.directed frames = a := by
  cases i with
  | constInt32 | constFloat64 | constBool =>
    cases h
    rfl
  | localGet index type =>
    obtain ⟨_, -, rfl⟩ := lowerIn_localGet_iff.1 h
    rfl
  | block label type children =>
    obtain ⟨_, -, ns, hns, rfl⟩ := lowerIn_block_iff.1 h
    rw [Node.directed, directedAll_of_lowerAllIn children hns]
  | binaryOp op type lhs rhs =>
    obtain ⟨l, hl, r, hr, _, -, rfl⟩ := lowerIn_binaryOp_iff.1 h
    rw [Node.directed, directed_of_lowerIn lhs hl, directed_of_lowerIn rhs hr]
  | breakTo label =>
    obtain ⟨d, hd, rfl⟩ := lowerIn_breakTo_iff.1 h
    rw [Node.directed, hd]
    rfl
  | breakWith label value =>
    obtain ⟨v, hv, d, hd, rfl⟩ := lowerIn_breakWith_iff.1 h
    rw [Node.directed, directed_of_lowerIn value hv, hd]
    rfl
  | ifThen condition thenBody =>
    obtain ⟨c, hc, -, t, ht, rfl⟩ := lowerIn_ifThen_iff.1 h
    rw [Node.directed, directed_of_lowerIn condition hc,
      Lowering.directed_discard (directed_of_lowerIn thenBody ht)]
  | ifElse condition thenBody elseBody =>
    obtain ⟨c, hc, -, t, ht, e, he, rfl⟩ := lowerIn_ifElse_iff.1 h
    rw [Node.directed, directed_of_lowerIn condition hc, directed_of_lowerIn thenBody ht,
      directed_of_lowerIn elseBody he]
  | storeLocal | propertyAccess | propertyAssignment | containerAlloc | stackAlloc | stackFree =>
    cases h

theorem directedAll_of_lowerAllIn (is : List Instruction) {frames : FrameStack} {ns : List Node}
    (h : lowerAllIn frames is = .ok ns) : Node.directedAll frames ns = ns := by
  cases is with
  | nil =>
    cases h
    rfl
  | cons i is =>
    obtain ⟨n, hn, ns', hns, rfl⟩ := lowerAllIn_cons_iff.1 h
    rw [Node.directedAll, directed_of_lowerIn i hn, directedAll_of_lowerAllIn is hns]

end

mutual

/-- The labels and the floating-point literals of a tree are those of its node. -/
theorem names_of_lowerIn (i : Instruction) {frames : FrameStack} {a : Node}
    (h : i.lowerIn frames = .ok a) : a.labels = i.labels ∧ a.literals = i.literals := by
  cases i with
  | constInt32 | constFloat64 | constBool =>
    cases h
    exact ⟨rfl, rfl⟩
  | localGet index type =>
    obtain ⟨_, -, rfl⟩ := lowerIn_localGet_iff.1 h
    exact ⟨rfl, rfl⟩
  | block label type children =>
    obtain ⟨_, -, ns, hns, rfl⟩ := lowerIn_block_iff.1 h
    obtain ⟨hl, hx⟩ := namesAll_of_lowerAllIn children hns
    exact ⟨congrArg (label :: ·) hl, hx⟩
  | binaryOp op type lhs rhs =>
    obtain ⟨l, hl, r, hr, _, -, rfl⟩ := lowerIn_binaryOp_iff.1 h
    obtain ⟨hll, hlx⟩ := names_of_lowerIn lhs hl
    obtain ⟨hrl, hrx⟩ := names_of_lowerIn rhs hr
    simp [Node.labels, labels, Node.literals, literals, hll, hlx, hrl, hrx]
  | breakTo label =>
    obtain ⟨d, hd, rfl⟩ := lowerIn_breakTo_iff.1 h
    exact ⟨rfl, rfl⟩
  | breakWith label value =>
    obtain ⟨v, hv, d, hd, rfl⟩ := lowerIn_breakWith_iff.1 h
    obtain ⟨hl, hx⟩ := names_of_lowerIn value hv
    exact ⟨congrArg (label :: ·) hl, hx⟩
  | ifThen condition thenBody =>
    obtain ⟨c, hc, -, t, ht, rfl⟩ := lowerIn_ifThen_iff.1 h
    obtain ⟨hcl, hcx⟩ := names_of_lowerIn condition hc
    obtain ⟨htl, htx⟩ := names_of_lowerIn thenBody ht
    simp [Node.labels, labels, Node.literals, literals, hcl, hcx, htl, htx]
  | ifElse condition thenBody elseBody =>
    obtain ⟨c, hc, -, t, ht, e, he, rfl⟩ := lowerIn_ifElse_iff.1 h
    obtain ⟨hcl, hcx⟩ := names_of_lowerIn condition hc
    obtain ⟨htl, htx⟩ := names_of_lowerIn thenBody ht
    obtain ⟨hel, hex⟩ := names_of_lowerIn elseBody he
    simp [Node.labels, labels, Node.literals, literals, hcl, hcx, htl, htx, hel, hex]
  | storeLocal | propertyAccess | propertyAssignment | containerAlloc | stackAlloc | stackFree =>
    cases h

theorem namesAll_of_lowerAllIn (is : List Instruction) {frames : FrameStack} {ns : List Node}
    (h : lowerAllIn frames is = .ok ns) :
    Node.labelsAll ns = labelsAll is ∧ Node.literalsAll ns = literalsOfAll is := by
  cases is with
  | nil =>
    cases h
    exact ⟨rfl, rfl⟩
  | cons i is =>
    obtain ⟨n, hn, ns', hns, rfl⟩ := lowerAllIn_cons_iff.1 h
    obtain ⟨hl, hx⟩ := names_of_lowerIn i hn
    obtain ⟨hls, hxs⟩ := namesAll_of_lowerAllIn is hns
    simp [Node.labelsAll, labelsAll, Node.literalsAll, literalsOfAll, hl, hx, hls, hxs]

end

theorem legible_of_lowerRoot {i : Instruction} {a : Node} (h : i.lowerRoot = .ok a)
    (hlabels : ∀ l ∈ i.labels, Lacks shaping l) (hliterals : ∀ x ∈ i.literals, x.isNaN = false) :
    Node.Legible a.labels a.literals := by
  obtain ⟨hl, hx⟩ := names_of_lowerIn i h
  exact ⟨hl ▸ hlabels, hx ▸ hliterals⟩

/-- Two trees that are accepted, whose labels have neither spaces, line feeds nor parentheses, and
whose floating-point literals are not NaN, have the same node if their nodes are listed with the
same text at the same level. In particular all branches have the same depths, although no depth is
listed, and the code is the same byte for byte. -/
theorem lowerRoot_listing_inj {i j : Instruction} {a b : Node} {n : Nat}
    (hi : i.lowerRoot = .ok a) (hj : j.lowerRoot = .ok b)
    (hlabels : ∀ l ∈ i.labels ++ j.labels, Lacks shaping l)
    (hliterals : ∀ x ∈ i.literals ++ j.literals, x.isNaN = false)
    (h : a.listing n = b.listing n) :
    a = b ∧ ∀ locals, (a.code locals).encode = (b.code locals).encode := by
  rw [List.forall_mem_append] at hlabels hliterals
  have ha := legible_of_lowerRoot hi hlabels.1 hliterals.1
  have hb := legible_of_lowerRoot hj hlabels.2 hliterals.2
  have hclean {node : Node} (h : Node.Legible node.labels node.literals) :
      ∀ line ∈ node.lines n, line.Clean :=
    (node.nested_lines n fun l hl => (h.labels l hl).of_shaping).clean
  have hlines : a.lines n ++ [] = b.lines n ++ [] :=
    congrArg (· ++ []) (Line.renderAll_inj (hclean ha) (hclean hb) h)
  obtain ⟨hundirected, -⟩ := a.selfDelimiting ha hb hlines
  have hsame : a = b := by
    rw [← directed_of_lowerIn i hi, ← directed_of_lowerIn j hj, ← a.directed_undirected,
      ← b.directed_undirected, hundirected]
  subst hsame
  exact ⟨rfl, fun _ => rfl⟩

/-- A block that is left early on a condition, with minus zero. -/
def leavingOn (condition : Instruction) : Instruction :=
  .block "out" .float64
    [.ifThen condition (.breakWith "out" (.constFloat64 ⟨0x8000000000000000⟩)), .constFloat64 ⟨0⟩]

/-- A truth and the word that stands for it are not told apart, here or in the code. -/
theorem leavingOn_listing :
    ∃ a b, (leavingOn (.constBool true)).lowerRoot = .ok a ∧
      (leavingOn (.constInt32 1)).lowerRoot = .ok b ∧ a.listing 2 = b.listing 2 ∧
      a = b ∧ ∀ locals, (a.code locals).encode = (b.code locals).encode := by
  let node : Node := .block "out" .float64
    [.ifThen .unreachable (.constI32 1) (.breakWith "out" 1 (.constF64 ⟨0x8000000000000000⟩)),
      .constF64 ⟨0⟩]
  have htruth : (leavingOn (.constBool true)).lowerRoot = .ok node := rfl
  have hword : (leavingOn (.constInt32 1)).lowerRoot = .ok node := rfl
  have htext : node.listing 2 = node.listing 2 := rfl
  exact ⟨node, node, htruth, hword, htext,
    lowerRoot_listing_inj htruth hword (by decide) (by decide +kernel) htext⟩

end Instruction

end TreeWasm
