-- SUMMARY: Indented lines, the form in which listings are built before they become text.

/-!
# Indented lines

A listing is a list of lines, each with its depth. Written out, a line starts with two spaces per
level and ends in a line feed.
-/

namespace TreeWasm

structure Line where
  indent : Nat
  text : String
deriving DecidableEq, Repr

namespace Line

def margin (indent : Nat) : String := String.ofList (List.replicate (2 * indent) ' ')

def render (line : Line) : String := margin line.indent ++ line.text ++ "\n"

/-- The text of a listing. -/
def renderAll (lines : List Line) : String := String.join (lines.map render)

theorem renderAll_append (xs ys : List Line) :
    renderAll (xs ++ ys) = renderAll xs ++ renderAll ys := by
  simp [renderAll]

/-- The line moved `n` levels inward. -/
def shift (n : Nat) (line : Line) : Line := ⟨line.indent + n, line.text⟩

end Line

end TreeWasm
