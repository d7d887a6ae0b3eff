-- SUMMARY: Programs and binaries requested with the text of a document.
import TreeWasm.Document.Decoding
import TreeWasm.Generation

/-!
# Requests with documents

A program may be handed over as the text of its document. A text that is not the document of a
program is refused with a diagnostic, and then nothing is generated.
-/

namespace TreeWasm

/-- The program of a document, or why the text is not one. -/
def readProgram (text : String) : Except Diagnostic (List Module) :=
  match Document.decodeProgram text with
  | .ok program => .ok program
  | .error fault => .error fault.diagnose

/-- The binary of the program of a document, or why there is none. -/
def generateDocument (text : String) (settings : Settings) : Except Diagnostic (List UInt8) := do
  let program ← readProgram text
  generate program settings

end TreeWasm
