-- SUMMARY: The report of a fault in a binary, with the name of the function it lies in.
import TreeWasm.Failure
import TreeWasm.Wasm.Validation.Basic

/-!
# Reports of faults

A fault in the code of a function is blamed on that function: the one whose code entry, from its
count of locals to its last operator, holds the offset of the fault. A fault anywhere else is
blamed on none.
-/

namespace TreeWasm.Wasm

/-- The code entries of a binary, in order, as far as its framing goes. -/
def codeEntries (bytes : List UInt8) : List Cursor :=
  (frame bytes).parts.filterMap fun
    | .codeEntry body => some body
    | _ => none

/-- The offset is that of a byte of the cursor. -/
def Cursor.covers (c : Cursor) (offset : Nat) : Bool :=
  c.offset ≤ offset && offset < c.offset + c.rest.length

/-- The index of the function whose code holds the offset. -/
def functionAt? (bytes : List UInt8) (offset : Nat) : Option Nat :=
  (codeEntries bytes).findIdx? (·.covers offset)

namespace Validation

/-- The failure that a fault amounts to. `subject` says what was checked, and `nameOf` gives the
names of functions by their indices. -/
def report (subject : String) (nameOf : Nat → Option String) (bytes : List UInt8) (fault : Fault) :
    Failure :=
  let place := match (functionAt? bytes fault.offset).bind nameOf with
    | some name => " in function '" ++ name ++ "'"
    | none => ""
  .unreachable (subject ++ " failed validation" ++ place ++ ": " ++ fault.cause.message ++
    " (at offset " ++ toString fault.offset ++ ")")

/-- Check the bytes of a binary module and report the first fault. -/
def validate (subject : String) (nameOf : Nat → Option String) (bytes : List UInt8) :
    Except Failure Unit :=
  match check bytes with
  | .ok () => .ok ()
  | .error fault => .error (report subject nameOf bytes fault)

/-- How a binary of unknown origin is called. -/
def plainSubject : String := "WASM module"

end Validation

end TreeWasm.Wasm
