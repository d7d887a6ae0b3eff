-- SUMMARY: Listings of instructions, functions and modules, one line a node.
import TreeWasm.Decimal.Layout
import TreeWasm.Text.Line
import TreeWasm.Tree.Program

/-!
# Listings of programs

Every instruction starts a line, and the parts it owns follow one level further in. Instructions
without code are shown by their kind alone. The lines of a tree at a deeper level are its lines
moved inward (`Instruction.lines_add`).
-/

namespace TreeWasm

/-- Listings write floating-point numbers positionally from `0.0001` up to below `10 ^ 16`, with
no sign on a positive exponent. -/
def listingLayout : Layout where
  plainFrom := -4
  plainUpTo := 15
  plusOnExponent := false
  tie := .up

namespace Instruction

mutual

def lines (n : Nat) : Instruction → List Line
  | .constInt32 value => [⟨n, toString value.toInt ++ "i32"⟩]
  | .constFloat64 value => [⟨n, listingLayout.float value ++ "f64"⟩]
  | .constBool value => [⟨n, if value then "true" else "false"⟩]
  | .localGet index type => [⟨n, "local " ++ toString index.toNat ++ ": " ++ type.name⟩]
  | .block label type children =>
    ⟨n, "block '" ++ label ++ ": " ++ type.name ++ " \x7b"⟩ ::
      (linesAll (n + 1) children ++ [⟨n, "\x7d"⟩])
  | .binaryOp op type lhs rhs =>
    ⟨n, op.name ++ "<" ++ type.name ++ ">"⟩ :: (lines (n + 1) lhs ++ lines (n + 1) rhs)
  | .breakTo label => [⟨n, "break '" ++ label⟩]
  | .breakWith label value => ⟨n, "break '" ++ label⟩ :: lines (n + 1) value
  | .ifThen condition thenBody =>
    ⟨n, "if"⟩ :: (lines (n + 1) condition ++ ⟨n, "then"⟩ :: lines (n + 1) thenBody)
  | .ifElse condition thenBody elseBody =>
    ⟨n, "if"⟩ :: (lines (n + 1) condition ++ ⟨n, "then"⟩ :: (lines (n + 1) thenBody ++
      ⟨n, "else"⟩ :: lines (n + 1) elseBody))
  | .storeLocal .. => [⟨n, "<" ++ Kind.storeLocal.name ++ ">"⟩]
  | .propertyAccess .. => [⟨n, "<" ++ Kind.propertyAccess.name ++ ">"⟩]
  | .propertyAssignment .. => [⟨n, "<" ++ Kind.propertyAssignment.name ++ ">"⟩]
  | .containerAlloc _ => [⟨n, "<" ++ Kind.containerAlloc.name ++ ">"⟩]
  | .stackAlloc _ => [⟨n, "<" ++ Kind.stackAlloc.name ++ ">"⟩]
  | .stackFree _ => [⟨n, "<" ++ Kind.stackFree.name ++ ">"⟩]

def linesAll (n : Nat) : List Instruction → List Line
  | [] => []
  | i :: is => lines n i ++ linesAll n is

end

/-- The listing of an instruction at a level. -/
def listing (n : Nat) (i : Instruction) : String := Line.renderAll (i.lines n)

mutual

theorem lines_add (n k : Nat) : ∀ i : Instruction, i.lines (n + k) = (i.lines n).map (.shift k)
  | .constInt32 _ | .constFloat64 _ | .constBool _ | .localGet .. | .breakTo _ | .storeLocal ..
  | .propertyAccess .. | .propertyAssignment .. | .containerAlloc _ | .stackAlloc _
  | .stackFree _ => by simp [lines, Line.shift]
  | .block _ _ children => by
    have h := linesAll_add (n + 1) k children
    rw [Nat.add_right_comm] at h
    simp [lines, Line.shift, h]
  | .binaryOp _ _ lhs rhs => by
    have hl := lines_add (n + 1) k lhs
    have hr := lines_add (n + 1) k rhs
    rw [Nat.add_right_comm] at hl hr
    simp [lines, Line.shift, hl, hr]
  | .breakWith _ value => by
    have h := lines_add (n + 1) k value
    rw [Nat.add_right_comm] at h
    simp [lines, Line.shift, h]
  | .ifThen condition thenBody => by
    have hc := lines_add (n + 1) k condition
    have ht := lines_add (n + 1) k thenBody
    rw [Nat.add_right_comm] at hc ht
    simp [lines, Line.shift, hc, ht]
  | .ifElse condition thenBody elseBody => by
    have hc := lines_add (n + 1) k condition
    have ht := lines_add (n + 1) k thenBody
    have he := lines_add (n + 1) k elseBody
    rw [Nat.add_right_comm] at hc ht he
    simp [lines, Line.shift, hc, ht, he]

theorem linesAll_add (n k : Nat) :
    ∀ is : List Instruction, linesAll (n + k) is = (linesAll n is).map (.shift k)
  | [] => rfl
  | i :: is => by simp [linesAll, lines_add n k i, linesAll_add n k is]

end

end Instruction

def typeNames (types : List ValueType) : String := ", ".intercalate (types.map ValueType.name)

/-- The lines of a function. The line of its local slots is left out when it has none. -/
def Function.lines (f : Function) : List Line :=
  ⟨0, "fn " ++ f.name ++ "(" ++ typeNames f.params ++ ") -> " ++ f.returnType.name ++ " \x7b"⟩ ::
    ((if f.locals.isEmpty then [] else [⟨1, "locals: " ++ typeNames f.locals⟩]) ++
      f.body.lines 1 ++ [⟨0, "\x7d"⟩])

def Function.listing (f : Function) : String := Line.renderAll f.lines

def Module.lines (m : Module) : List Line :=
  ⟨0, "=== Module " ++ m.name ++ " ==="⟩ :: m.functions.flatMap Function.lines

def Module.listing (m : Module) : String := Line.renderAll m.lines

end TreeWasm
