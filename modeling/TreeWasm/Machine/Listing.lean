-- SUMMARY: Listings of machine nodes as indented s-expressions.
import TreeWasm.Machine.Node
import TreeWasm.Text.Line
import TreeWasm.Tree.Listing

/-!
# Listings of machine nodes

A node is written as an s-expression in the style of the target's text format. Branches show the
label they go to and not the depth. The lines of a node at a deeper level are its lines moved
inward (`Node.lines_add`).
-/

namespace TreeWasm

/-- The result clause of a block or an if. There is none when it leaves no value. -/
def MachineType.resultClause (t : MachineType) : String :=
  match t.valType? with
  | some _ => " (result " ++ t.name ++ ")"
  | none => ""

namespace Node

mutual

def lines (n : Nat) : Node → List Line
  | .constI32 value => [⟨n, "(i32.const " ++ toString value.toInt ++ ")"⟩]
  | .constF64 value => [⟨n, "(f64.const " ++ listingLayout.float value ++ ")"⟩]
  | .localGet index type =>
    [⟨n, "(local.get " ++ toString index.toNat ++ " (; " ++ type.name ++ " ;))"⟩]
  | .block label type children =>
    ⟨n, "(block $" ++ label ++ type.resultClause⟩ :: (linesAll (n + 1) children ++ [⟨n, ")"⟩])
  | .binary op lhs rhs =>
    ⟨n, "(" ++ op.name⟩ :: (lines (n + 1) lhs ++ (lines (n + 1) rhs ++ [⟨n, ")"⟩]))
  | .breakTo label _ => [⟨n, "(br $" ++ label ++ ")"⟩]
  | .breakWith label _ value =>
    ⟨n, "(br $" ++ label⟩ :: (lines (n + 1) value ++ [⟨n, ")"⟩])
  | .ifThen type condition thenBody =>
    ⟨n, "(if" ++ type.resultClause⟩ :: (lines (n + 1) condition ++
      ⟨n + 1, "(then"⟩ :: (lines (n + 2) thenBody ++ [⟨n + 1, ")"⟩, ⟨n, ")"⟩]))
  | .ifElse type condition thenBody elseBody =>
    ⟨n, "(if" ++ type.resultClause⟩ :: (lines (n + 1) condition ++
      ⟨n + 1, "(then"⟩ :: (lines (n + 2) thenBody ++ ⟨n + 1, ")"⟩ ::
        ⟨n + 1, "(else"⟩ :: (lines (n + 2) elseBody ++ [⟨n + 1, ")"⟩, ⟨n, ")"⟩])))
  | .drop value => ⟨n, "(drop"⟩ :: (lines (n + 1) value ++ [⟨n, ")"⟩])

def linesAll (n : Nat) : List Node → List Line
  | [] => []
  | node :: nodes => lines n node ++ linesAll n nodes

end

/-- The listing of a node at a level. -/
def listing (n : Nat) (node : Node) : String := Line.renderAll (node.lines n)

mutual

theorem lines_add (n k : Nat) : ∀ node : Node, node.lines (n + k) = (node.lines n).map (.shift k)
  | .constI32 _ | .constF64 _ | .localGet .. | .breakTo .. => by simp [lines, Line.shift]
  | .block _ _ children => by
    have h := linesAll_add (n + 1) k children
    rw [Nat.add_right_comm] at h
    simp [lines, Line.shift, h]
  | .binary _ lhs rhs => by
    have hl := lines_add (n + 1) k lhs
    have hr := lines_add (n + 1) k rhs
    rw [Nat.add_right_comm] at hl hr
    simp [lines, Line.shift, hl, hr]
  | .breakWith _ _ value => by
    have h := lines_add (n + 1) k value
    rw [Nat.add_right_comm] at h
    simp [lines, Line.shift, h]
  | .ifThen _ condition thenBody => by
    have hc := lines_add (n + 1) k condition
    have ht := lines_add (n + 2) k thenBody
    rw [Nat.add_right_comm] at hc ht
    simp [lines, Line.shift, hc, ht, Nat.add_right_comm]
  | .ifElse _ condition thenBody elseBody => by
    have hc := lines_add (n + 1) k condition
    have ht := lines_add (n + 2) k thenBody
    have he := lines_add (n + 2) k elseBody
    rw [Nat.add_right_comm] at hc ht he
    simp [lines, Line.shift, hc, ht, he, Nat.add_right_comm]
  | .drop value => by
    have h := lines_add (n + 1) k value
    rw [Nat.add_right_comm] at h
    simp [lines, Line.shift, h]

theorem linesAll_add (n k : Nat) :
    ∀ nodes : List Node, linesAll (n + k) nodes = (linesAll n nodes).map (.shift k)
  | [] => rfl
  | node :: nodes => by simp [linesAll, lines_add n k node, linesAll_add n k nodes]

end

end Node

end TreeWasm
