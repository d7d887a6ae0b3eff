-- SUMMARY: A node can be told from its listing, except for the depths of its branches.
import TreeWasm.Proofs.Machine.Head

/-!
# Nodes from their listings

The lines of a node say where it ends, so a node can be told from lines that begin with its own
(`Node.selfDelimiting`). Only the depths of branches are not shown; `Node.undirected` is the node
without them.
-/

namespace TreeWasm

namespace Node

mutual

/-- The node with all depths of branches set to zero. -/
def undirected : Node → Node
  | .constI32 value => .constI32 value
  | .constF64 value => .constF64 value
  | .localGet index type => .localGet index type
  | .block label type children => .block label type (undirectedAll children)
  | .binary op lhs rhs => .binary op (undirected lhs) (undirected rhs)
  | .breakTo label _ => .breakTo label 0
  | .breakWith label _ value => .breakWith label 0 (undirected value)
  | .ifThen type condition thenBody => .ifThen type (undirected condition) (undirected thenBody)
  | .ifElse type condition thenBody elseBody =>
    .ifElse type (undirected condition) (undirected thenBody) (undirected elseBody)
  | .drop value => .drop (undirected value)

def undirectedAll : List Node → List Node
  | [] => []
  | node :: nodes => undirected node :: undirectedAll nodes

end

mutual

/-- The floating-point literals of a node, in order. -/
def literals : Node → List Binary64
  | .constF64 value => [value]
  | .constI32 _ | .localGet .. | .breakTo .. => []
  | .block _ _ children => literalsAll children
  | .binary _ lhs rhs => literals lhs ++ literals rhs
  | .breakWith _ _ value => literals value
  | .ifThen _ condition thenBody => literals condition ++ literals thenBody
  | .ifElse _ condition thenBody elseBody =>
    literals condition ++ (literals thenBody ++ literals elseBody)
  | .drop value => literals value

def literalsAll : List Node → List Binary64
  | [] => []
  | node :: nodes => literals node ++ literalsAll nodes

end

/-- The labels and numbers are such that they can be read. -/
structure Legible (labels : List String) (literals : List Binary64) : Prop where
  labels : ∀ l ∈ labels, Lacks shaping l
  literals : ∀ x ∈ literals, x.isNaN = false

namespace Legible

variable {label : String} {ls ls' : List String} {xs xs' : List Binary64}

theorem append_iff : Legible (ls ++ ls') (xs ++ xs') ↔ Legible ls xs ∧ Legible ls' xs' := by
  constructor
  · rintro ⟨hl, hx⟩
    rw [List.forall_mem_append] at hl hx
    exact ⟨⟨hl.1, hx.1⟩, ⟨hl.2, hx.2⟩⟩
  · rintro ⟨⟨hl, hx⟩, ⟨hl', hx'⟩⟩
    exact ⟨List.forall_mem_append.2 ⟨hl, hl'⟩, List.forall_mem_append.2 ⟨hx, hx'⟩⟩

theorem cons_iff : Legible (label :: ls) xs ↔ Lacks shaping label ∧ Legible ls xs := by
  constructor
  · rintro ⟨hl, hx⟩
    rw [List.forall_mem_cons] at hl
    exact ⟨hl.1, hl.2, hx⟩
  · rintro ⟨hlabel, hl, hx⟩
    exact ⟨List.forall_mem_cons.2 ⟨hlabel, hl⟩, hx⟩

end Legible

/-- What the node says itself. -/
def head : Node → Head
  | .constI32 value => .constI32 value
  | .constF64 value => .constF64 value
  | .localGet index type => .localGet index type
  | .block label type _ => .block label type
  | .binary op _ _ => .binary op
  | .breakTo label _ => .breakTo label
  | .breakWith label _ _ => .breakWith label
  | .ifThen type _ _ => .cond type
  | .ifElse type _ _ _ => .cond type
  | .drop _ => .drop

/-- The first line shows the head. -/
theorem lines_eq_cons (n : Nat) (node : Node) :
    node.lines n = ⟨n, node.head.text⟩ :: (node.lines n).tail := by
  cases node <;> simp [lines, head, Head.text, Head.word, Word.name, Head.rest, String.ext_iff]

theorem readable_head {node : Node} (h : Legible node.labels node.literals) :
    node.head.Readable := by
  cases node with
  | constF64 value => exact h.literals value List.mem_cons_self
  | block label | breakTo label | breakWith label => exact h.labels label List.mem_cons_self
  | _ => trivial

variable {n : Nat} {xs ys : List Line}

/-- Listings that start alike have the same head, and go on alike. -/
theorem head_eq_of_lines {a b : Node} (ha : Legible a.labels a.literals)
    (hb : Legible b.labels b.literals) (h : a.lines n ++ xs = b.lines n ++ ys) :
    a.head = b.head ∧ (a.lines n).tail ++ xs = (b.lines n).tail ++ ys := by
  rw [a.lines_eq_cons, b.lines_eq_cons, List.cons_append, List.cons_append] at h
  obtain ⟨hline, htail⟩ := List.cons.inj h
  exact ⟨Head.text_inj (readable_head ha) (readable_head hb) (congrArg Line.text hline), htail⟩

/-! ## One node after the other -/

/-- If the lines of the node and of another one both begin a listing, then neither goes on where the
other ends, and the two are the same but for the depths of their branches. -/
def SelfDelimiting (a : Node) : Prop :=
  ∀ ⦃n : Nat⦄ ⦃b : Node⦄ ⦃xs ys : List Line⦄, Legible a.labels a.literals →
    Legible b.labels b.literals → a.lines n ++ xs = b.lines n ++ ys →
      a.undirected = b.undirected ∧ xs = ys

/-- The same for the children of a block, up to the line that closes the block. -/
def SelfDelimitingAll (as : List Node) : Prop :=
  ∀ ⦃n : Nat⦄ ⦃bs : List Node⦄ ⦃xs ys : List Line⦄, Legible (labelsAll as) (literalsAll as) →
    Legible (labelsAll bs) (literalsAll bs) →
    linesAll (n + 1) as ++ ⟨n, ")"⟩ :: xs = linesAll (n + 1) bs ++ ⟨n, ")"⟩ :: ys →
      undirectedAll as = undirectedAll bs ∧ xs = ys

theorem SelfDelimitingAll.nil : SelfDelimitingAll [] := by
  intro n bs xs ys _ _ h
  cases bs with
  | nil => exact ⟨rfl, (List.cons.inj h).2⟩
  | cons b bs =>
    -- a line of a child is one level further in than the line behind all children
    rw [linesAll, linesAll, b.lines_eq_cons] at h
    exact absurd (congrArg Line.indent (List.cons.inj h).1) (by simp)

namespace SelfDelimiting

theorem cons {a : Node} {as : List Node} (ha : a.SelfDelimiting) (has : SelfDelimitingAll as) :
    SelfDelimitingAll (a :: as) := by
  intro n bs xs ys hl hr h
  cases bs with
  | nil =>
    rw [linesAll, linesAll, a.lines_eq_cons] at h
    exact absurd (congrArg Line.indent (List.cons.inj h).1) (by simp)
  | cons b bs =>
    obtain ⟨hla, hlas⟩ := Legible.append_iff.1 hl
    obtain ⟨hrb, hrbs⟩ := Legible.append_iff.1 hr
    rw [linesAll, linesAll, List.append_assoc, List.append_assoc] at h
    obtain ⟨hfirst, hrest⟩ := ha hla hrb h
    obtain ⟨hothers, hbehind⟩ := has hlas hrbs hrest
    exact ⟨by rw [undirectedAll, undirectedAll, hfirst, hothers], hbehind⟩

/-- A node that is told from its head alone, and with it the number of its lines. -/
theorem of_head {a : Node} (ha : ∀ b : Node, a.head = b.head →
    a.undirected = b.undirected ∧ ∀ n, (a.lines n).tail = (b.lines n).tail) :
    a.SelfDelimiting := by
  intro n b xs ys hl hr h
  obtain ⟨hhead, htail⟩ := head_eq_of_lines hl hr h
  obtain ⟨hsame, hlines⟩ := ha b hhead
  rw [hlines n] at htail
  exact ⟨hsame, List.append_cancel_left htail⟩

theorem constI32 (value : Int32) : (Node.constI32 value).SelfDelimiting := by
  refine of_head fun b h => ?_
  cases b <;> cases h
  exact ⟨rfl, fun _ => rfl⟩

theorem constF64 (value : Binary64) : (Node.constF64 value).SelfDelimiting := by
  refine of_head fun b h => ?_
  cases b <;> cases h
  exact ⟨rfl, fun _ => rfl⟩

theorem localGet (index : UInt32) (type : MachineType) :
    (Node.localGet index type).SelfDelimiting := by
  refine of_head fun b h => ?_
  cases b <;> cases h
  exact ⟨rfl, fun _ => rfl⟩

theorem breakTo (label : String) (depth : Nat) : (Node.breakTo label depth).SelfDelimiting := by
  refine of_head fun b h => ?_
  cases b <;> cases h
  exact ⟨rfl, fun _ => rfl⟩

theorem block (label : String) (type : MachineType) {children : List Node}
    (hchildren : SelfDelimitingAll children) :
    (Node.block label type children).SelfDelimiting := by
  intro n b xs ys ha hb h
  obtain ⟨hhead, htail⟩ := head_eq_of_lines ha hb h
  cases b with
  | block label' type' children' =>
    obtain ⟨rfl, rfl⟩ := Head.block.inj hhead
    simp only [lines, List.tail_cons, List.append_assoc] at htail
    obtain ⟨hsame, hrest⟩ := hchildren (Legible.cons_iff.1 ha).2 (Legible.cons_iff.1 hb).2 htail
    exact ⟨by rw [undirected, undirected, hsame], hrest⟩
  | _ => cases hhead

theorem breakWith (label : String) (depth : Nat) {value : Node} (hvalue : value.SelfDelimiting) :
    (Node.breakWith label depth value).SelfDelimiting := by
  intro n b xs ys ha hb h
  obtain ⟨hhead, htail⟩ := head_eq_of_lines ha hb h
  cases b with
  | breakWith label' depth' value' =>
    obtain rfl := Head.breakWith.inj hhead
    simp only [lines, List.tail_cons, List.append_assoc] at htail
    obtain ⟨hsame, hrest⟩ := hvalue (Legible.cons_iff.1 ha).2 (Legible.cons_iff.1 hb).2 htail
    exact ⟨by rw [undirected, undirected, hsame], (List.cons.inj hrest).2⟩
  | _ => cases hhead

theorem drop {value : Node} (hvalue : value.SelfDelimiting) :
    (Node.drop value).SelfDelimiting := by
  intro n b xs ys ha hb h
  obtain ⟨hhead, htail⟩ := head_eq_of_lines ha hb h
  cases b with
  | drop value' =>
    simp only [lines, List.tail_cons, List.append_assoc] at htail
    obtain ⟨hsame, hrest⟩ := hvalue (b := value') ha hb htail
    exact ⟨by rw [undirected, undirected, hsame], (List.cons.inj hrest).2⟩
  | _ => cases hhead

theorem binary (op : MachineOp) {lhs rhs : Node} (hlhs : lhs.SelfDelimiting)
    (hrhs : rhs.SelfDelimiting) : (Node.binary op lhs rhs).SelfDelimiting := by
  intro n b xs ys ha hb h
  obtain ⟨hhead, htail⟩ := head_eq_of_lines ha hb h
  cases b with
  | binary op' lhs' rhs' =>
    obtain rfl := Head.binary.inj hhead
    obtain ⟨hal, har⟩ := Legible.append_iff.1 ha
    obtain ⟨hbl, hbr⟩ := Legible.append_iff.1 hb
    simp only [lines, List.tail_cons, List.append_assoc] at htail
    obtain ⟨hl, htail⟩ := hlhs hal hbl htail
    obtain ⟨hr, htail⟩ := hrhs har hbr htail
    exact ⟨by rw [undirected, undirected, hl, hr], (List.cons.inj htail).2⟩
  | _ => cases hhead

section

variable {c t : Node} (hc : c.SelfDelimiting) (ht : t.SelfDelimiting)
include hc ht

/-- The condition and the first arm of an if end with the line that closes the arm. -/
theorem arm {n : Nat} {c' t' : Node} {xs ys : List Line} (hac : Legible c.labels c.literals)
    (hat : Legible t.labels t.literals) (hbc : Legible c'.labels c'.literals)
    (hbt : Legible t'.labels t'.literals)
    (h : c.lines (n + 1) ++ ⟨n + 1, "(then"⟩ :: (t.lines (n + 2) ++ ⟨n + 1, ")"⟩ :: xs) =
      c'.lines (n + 1) ++ ⟨n + 1, "(then"⟩ :: (t'.lines (n + 2) ++ ⟨n + 1, ")"⟩ :: ys)) :
    c.undirected = c'.undirected ∧ t.undirected = t'.undirected ∧ xs = ys := by
  obtain ⟨hcondition, htail⟩ := hc hac hbc h
  obtain ⟨harm, htail⟩ := ht hat hbt (List.cons.inj htail).2
  exact ⟨hcondition, harm, (List.cons.inj htail).2⟩

/-- Behind its arm, an if without another arm is closed. -/
theorem ifThen (type : MachineType) : (Node.ifThen type c t).SelfDelimiting := by
  intro n b xs ys ha hb h
  obtain ⟨hhead, htail⟩ := head_eq_of_lines ha hb h
  obtain ⟨hac, hat⟩ := Legible.append_iff.1 ha
  cases b with
  | ifThen type' c' t' =>
    obtain rfl := Head.cond.inj hhead
    obtain ⟨hbc, hbt⟩ := Legible.append_iff.1 hb
    simp only [lines, List.tail_cons, List.append_assoc, List.cons_append] at htail
    obtain ⟨hcondition, harm, htail⟩ := hc.arm ht hac hat hbc hbt htail
    exact ⟨by rw [undirected, undirected, hcondition, harm], (List.cons.inj htail).2⟩
  | ifElse type' c' t' e' =>
    obtain ⟨hbc, hbarms⟩ := Legible.append_iff.1 hb
    simp only [lines, List.tail_cons, List.append_assoc, List.cons_append] at htail
    obtain ⟨-, -, htail⟩ := hc.arm ht hac hat hbc (Legible.append_iff.1 hbarms).1 htail
    exact absurd (List.cons.inj htail).1 (by simp)
  | _ => cases hhead

/-- Behind its first arm, an if with two arms goes on with the other. -/
theorem ifElse (type : MachineType) {e : Node} (he : e.SelfDelimiting) :
    (Node.ifElse type c t e).SelfDelimiting := by
  intro n b xs ys ha hb h
  obtain ⟨hhead, htail⟩ := head_eq_of_lines ha hb h
  obtain ⟨hac, haarms⟩ := Legible.append_iff.1 ha
  obtain ⟨hat, hae⟩ := Legible.append_iff.1 haarms
  cases b with
  | ifThen type' c' t' =>
    obtain ⟨hbc, hbt⟩ := Legible.append_iff.1 hb
    simp only [lines, List.tail_cons, List.append_assoc, List.cons_append] at htail
    obtain ⟨-, -, htail⟩ := hc.arm ht hac hat hbc hbt htail
    exact absurd (List.cons.inj htail).1 (by simp)
  | ifElse type' c' t' e' =>
    obtain rfl := Head.cond.inj hhead
    obtain ⟨hbc, hbarms⟩ := Legible.append_iff.1 hb
    obtain ⟨hbt, hbe⟩ := Legible.append_iff.1 hbarms
    simp only [lines, List.tail_cons, List.append_assoc, List.cons_append] at htail
    obtain ⟨hcondition, harm, htail⟩ := hc.arm ht hac hat hbc hbt htail
    obtain ⟨hother, htail⟩ := he hae hbe (List.cons.inj htail).2
    exact ⟨by rw [undirected, undirected, hcondition, harm, hother],
      (List.cons.inj (List.cons.inj htail).2).2⟩
  | _ => cases hhead

end

end SelfDelimiting

mutual

/-- A node can be told from any listing that begins with its lines, but for the depths of its
branches. -/
theorem selfDelimiting : ∀ node : Node, node.SelfDelimiting
  | .constI32 value => .constI32 value
  | .constF64 value => .constF64 value
  | .localGet index type => .localGet index type
  | .block label type children => .block label type (selfDelimitingAll children)
  | .binary op lhs rhs => .binary op (selfDelimiting lhs) (selfDelimiting rhs)
  | .breakTo label depth => .breakTo label depth
  | .breakWith label depth value => .breakWith label depth (selfDelimiting value)
  | .ifThen type condition thenBody =>
    (selfDelimiting condition).ifThen (selfDelimiting thenBody) type
  | .ifElse type condition thenBody elseBody =>
    (selfDelimiting condition).ifElse (selfDelimiting thenBody) type (selfDelimiting elseBody)
  | .drop value => (selfDelimiting value).drop

theorem selfDelimitingAll : ∀ nodes : List Node, SelfDelimitingAll nodes
  | [] => .nil
  | node :: nodes => (selfDelimiting node).cons (selfDelimitingAll nodes)

end

end Node

end TreeWasm
