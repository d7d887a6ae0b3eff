-- SUMMARY: Validation of a whole binary module: the sections in order, then the bodies in order.
import TreeWasm.Wasm.Validation.Sections

/-!
# Validation

A binary is checked part by part. Sections come first, each entry in turn; the code entries are put
aside and checked afterwards, in order. The first fault is the answer.
-/

namespace TreeWasm.Wasm.Validation

/-- Check one part of a binary. -/
def checkPart (s : Summary) : Part → Except Fault Summary
  | .entries kind start count contents => checkEntries kind start count contents s
  | .number kind start value => located start (checkNumber kind value s)
  | .codeEntry body => .ok { s with pending := body :: s.pending }

/-- Check the code of the function at an index. -/
def checkCode (s : Summary) (index : Nat) (body : Cursor) : Except Fault Unit := do
  let type ← located body.offset (s.declaredFunction index)
  checkFunction s.toContext type body

/-- Check the code entries. The functions that they belong to come behind the imported ones. -/
def checkPending (s : Summary) : Except Fault Unit :=
  (s.pending.reverse.zipIdx s.imported).forM fun (body, index) => checkCode s index body

/-- Check the parts of a binary, then its framing to the end, then its bodies. -/
def checkFraming (f : Framing) : Except Fault Unit := do
  let s ← f.parts.foldlM checkPart {}
  match f.fault with
  | some fault => throw fault
  | none => checkPending s

/-- Check the bytes of a binary module. -/
def check (bytes : List UInt8) : Except Fault Unit := checkFraming (frame bytes)

end TreeWasm.Wasm.Validation
