-- SUMMARY: The stack of open frames, by which labels become relative branch depths.
import TreeWasm.Lowering.Refusal

/-!
# Frames

Blocks and the bodies of ifs open frames. A block's frame carries its label, an if's does not; a
branch counts both. The innermost frame stands first, and a label means the innermost block that
carries it.

The numbers that a stack tells are integers of 32 bits. Nothing keeps it from holding more frames
than that; from there on they start again at zero.
-/

namespace TreeWasm

/-- What a frame was opened for. -/
inductive Frame.Kind where
  | block (label : String)
  | cond
deriving DecidableEq, Repr, Inhabited

structure Frame where
  kind : Frame.Kind
  /-- The number of frames that were open before this one. -/
  depth : UInt32
deriving DecidableEq, Repr, Inhabited

/-- The label that a break can name. -/
def Frame.label? (f : Frame) : Option String :=
  match f.kind with
  | .block label => some label
  | .cond => none

/-- The open frames, innermost first. -/
structure FrameStack where
  frames : List Frame := []
deriving DecidableEq, Repr, Inhabited

namespace FrameStack

/-- The number of open frames. -/
def depth (s : FrameStack) : UInt32 := .ofNat s.frames.length

def isBalanced (s : FrameStack) : Bool := s.frames.isEmpty

/-- The innermost open frame. -/
def current? (s : FrameStack) : Option Frame := s.frames.head?

def enter (kind : Frame.Kind) (s : FrameStack) : FrameStack := ⟨⟨kind, s.depth⟩ :: s.frames⟩

def enterBlock (label : String) (s : FrameStack) : FrameStack := s.enter (.block label)

def enterIf (s : FrameStack) : FrameStack := s.enter .cond

/-- Close the innermost frame. -/
def exit (s : FrameStack) : Except Refusal (Frame × FrameStack) :=
  match s.frames with
  | frame :: outer => .ok (frame, ⟨outer⟩)
  | [] => .error .noOpenFrame

/-- The number of frames between a break and the block it names, however many there are. -/
def distance (label : String) (s : FrameStack) : Except Refusal Nat :=
  match s.frames.findIdx? (·.label? == some label) with
  | some relative => .ok relative
  | none => .error (.unknownLabel label s.depth)

/-- The relative depth by which a break reaches the block it names. -/
def resolve (label : String) (s : FrameStack) : Except Refusal UInt32 :=
  (s.distance label).map .ofNat

@[simp] theorem exit_enter (kind : Frame.Kind) (s : FrameStack) :
    (s.enter kind).exit = .ok (⟨kind, s.depth⟩, s) := rfl

theorem isBalanced_iff (s : FrameStack) : s.isBalanced = true ↔ s.frames = [] :=
  List.isEmpty_iff

end FrameStack

end TreeWasm
