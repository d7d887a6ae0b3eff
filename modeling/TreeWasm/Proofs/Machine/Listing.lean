-- SUMMARY: The listing of a machine node is nested, and deeper levels only add to its margins.
import TreeWasm.Machine.Listing
import TreeWasm.Proofs.Decimal.Layout
import TreeWasm.Proofs.Text.Parentheses

/-!
# Listings of machine nodes are nested

Every node is listed as one line that closes what it opens, or as a group that its parts are nested
in (`Node.nested_lines`), whatever its labels are as long as they have no parentheses and line
feeds.
-/

namespace TreeWasm

namespace MachineType

theorem lacks_name (t : MachineType) : Lacks shaping t.name := by cases t <;> decide

theorem inside_resultClause (t : MachineType) : Inside t.resultClause := by
  unfold resultClause
  split
  · have htext : " (result " ++ t.name ++ ")" = " " ++ ("(" ++ ("result " ++ t.name) ++ ")") := by
      simp [String.ext_iff]
    have hclause : Inside ("result " ++ t.name) :=
      .append (.of_lacks (by decide)) (.of_lacks_shaping t.lacks_name)
    rw [htext]
    exact .append (.of_lacks (by decide)) hclause.parens
  · exact .of_lacks (by decide)

end MachineType

theorem MachineOp.lacks_name (op : MachineOp) : Lacks shaping op.name := by
  rcases op with ⟨_ | _, _ | _⟩ | ⟨_ | _, _ | _⟩ <;> decide

namespace Node

mutual

/-- The labels of the blocks and the branches of a node, in order. -/
def labels : Node → List String
  | .constI32 _ | .constF64 _ | .localGet .. => []
  | .block label _ children => label :: labelsAll children
  | .binary _ lhs rhs => labels lhs ++ labels rhs
  | .breakTo label _ => [label]
  | .breakWith label _ value => label :: labels value
  | .ifThen _ condition thenBody => labels condition ++ labels thenBody
  | .ifElse _ condition thenBody elseBody =>
    labels condition ++ (labels thenBody ++ labels elseBody)
  | .drop value => labels value

def labelsAll : List Node → List String
  | [] => []
  | node :: nodes => labels node ++ labelsAll nodes

end

/-! ## Nesting -/

theorem nested_single {n : Nat} {text body : String} (hbody : Inside body)
    (htext : text = "(" ++ body ++ ")") : Nested n [⟨n, text⟩] := .form htext hbody .nil

theorem nested_group {n : Nat} {text head : String} {inner : List Line} (hhead : Inside head)
    (htext : text = "(" ++ head) (hinner : Nested (n + 1) inner) :
    Nested n (⟨n, text⟩ :: (inner ++ [⟨n, ")"⟩])) := .group htext hhead hinner .nil

theorem nested_then {n : Nat} {inner : List Line} (hinner : Nested (n + 1) inner) :
    Nested n (⟨n, "(then"⟩ :: (inner ++ [⟨n, ")"⟩])) := by
  have hhead : Inside "then" := .of_lacks (by decide)
  exact nested_group hhead rfl hinner

theorem nested_else {n : Nat} {inner : List Line} (hinner : Nested (n + 1) inner) :
    Nested n (⟨n, "(else"⟩ :: (inner ++ [⟨n, ")"⟩])) := by
  have hhead : Inside "else" := .of_lacks (by decide)
  exact nested_group hhead rfl hinner

theorem nested_if {n : Nat} (type : MachineType) {inner : List Line}
    (hinner : Nested (n + 1) inner) :
    Nested n (⟨n, "(if" ++ type.resultClause⟩ :: (inner ++ [⟨n, ")"⟩])) := by
  have hhead : Inside ("if" ++ type.resultClause) :=
    .append (.of_lacks (by decide)) type.inside_resultClause
  exact nested_group hhead (by simp [String.ext_iff]) hinner

mutual

/-- Nodes are listed as nested lines. -/
theorem nested_lines (n : Nat) :
    ∀ node : Node, (∀ l ∈ node.labels, Lacks nesting l) → Nested n (node.lines n)
  | .constI32 value, _ => by
    have hbody : Inside ("i32.const " ++ toString value.toInt) :=
      .append (.of_lacks (by decide)) (.of_lacks_shaping (lacks_intToString _))
    exact nested_single hbody (by simp [String.ext_iff])
  | .constF64 value, _ => by
    have hbody : Inside ("f64.const " ++ listingLayout.float value) :=
      .append (.of_lacks (by decide)) (.of_lacks_shaping (listingLayout.lacks_float value))
    exact nested_single hbody (by simp [String.ext_iff])
  | .localGet index type, _ => by
    have htype : Inside ("; " ++ type.name ++ " ;") :=
      .append (.append (.of_lacks (by decide)) (.of_lacks_shaping type.lacks_name))
        (.of_lacks (by decide))
    have hindex : Inside (toString index.toNat) := .of_lacks_shaping (lacks_natToString _)
    have hbody : Inside ("local.get " ++ toString index.toNat ++ " " ++
        ("(" ++ ("; " ++ type.name ++ " ;") ++ ")")) :=
      .append (.append (.append (.of_lacks (by decide)) hindex) (.of_lacks (by decide)))
        htype.parens
    exact nested_single hbody (by simp [String.ext_iff])
  | .block label type children, h => by
    simp only [labels, List.forall_mem_cons] at h
    have hhead : Inside ("block $" ++ label ++ type.resultClause) :=
      .append (.append (.of_lacks (by decide)) (.of_lacks h.1)) type.inside_resultClause
    exact nested_group hhead (by simp [String.ext_iff]) (nested_linesAll (n + 1) children h.2)
  | .binary op lhs rhs, h => by
    simp only [labels, List.forall_mem_append] at h
    have hinner := (nested_lines (n + 1) lhs h.1).append (nested_lines (n + 1) rhs h.2)
    rw [lines, ← List.append_assoc]
    exact nested_group (.of_lacks_shaping op.lacks_name) rfl hinner
  | .breakTo label _, h => by
    have hbody : Inside ("br $" ++ label) :=
      .append (.of_lacks (by decide)) (.of_lacks (h label List.mem_cons_self))
    exact nested_single hbody (by simp [String.ext_iff])
  | .breakWith label _ value, h => by
    simp only [labels, List.forall_mem_cons] at h
    have hhead : Inside ("br $" ++ label) := .append (.of_lacks (by decide)) (.of_lacks h.1)
    exact nested_group hhead (by simp [String.ext_iff]) (nested_lines (n + 1) value h.2)
  | .ifThen type condition thenBody, h => by
    simp only [labels, List.forall_mem_append] at h
    have hthen := nested_then (nested_lines (n + 2) thenBody h.2)
    have hgroup := nested_if type ((nested_lines (n + 1) condition h.1).append hthen)
    simpa [lines] using hgroup
  | .ifElse type condition thenBody elseBody, h => by
    simp only [labels, List.forall_mem_append] at h
    have hthen := nested_then (nested_lines (n + 2) thenBody h.2.1)
    have helse := nested_else (nested_lines (n + 2) elseBody h.2.2)
    have harms := hthen.append helse
    have hgroup := nested_if type ((nested_lines (n + 1) condition h.1).append harms)
    simpa [lines] using hgroup
  | .drop value, h => by
    have hhead : Inside "drop" := .of_lacks (by decide)
    exact nested_group hhead rfl (nested_lines (n + 1) value h)

theorem nested_linesAll (n : Nat) :
    ∀ nodes : List Node, (∀ l ∈ labelsAll nodes, Lacks nesting l) → Nested n (linesAll n nodes)
  | [], _ => .nil
  | node :: nodes, h => by
    simp only [labelsAll, List.forall_mem_append] at h
    exact (nested_lines n node h.1).append (nested_linesAll n nodes h.2)

end

/-- At a deeper level, every line of a node has a wider margin, and nothing else changes. -/
theorem listing_add (n k : Nat) {node : Node} (h : ∀ l ∈ node.labels, Lacks nesting l) :
    (node.listing (n + k)).toList =
      joinLines ((splitLines (node.listing n).toList).map (List.replicate (2 * k) ' ' ++ ·)) := by
  have hlines := fun line hl => ((node.nested_lines n h).clean line hl).not_mem
  unfold listing
  rw [Line.splitLines_renderAll hlines, Line.toList_renderAll, lines_add, List.map_map,
    List.map_map]
  congr 2
  funext line
  exact line.chars_shift k

end Node

end TreeWasm
