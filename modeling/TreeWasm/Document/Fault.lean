-- SUMMARY: Why a text is not the document of a program.
import TreeWasm.Failure
import TreeWasm.Json.Printing
import TreeWasm.Text.Quoted

/-!
# Faults of documents

A document is refused either because its text is not JSON or because a value in it is not what its
place calls for. Where in the text the trouble was found is left out, and so is what exactly keeps a
text from being JSON.
-/

namespace TreeWasm

namespace Document

inductive Fault where
  /-- The text is not JSON, or it nests too deep. -/
  | malformed
  | missingField (name : String)
  | duplicateField (name : String)
  | unknownVariant (name : String) (known : List String)
  /-- A value of another sort stands where `expected` is due. -/
  | wrongType (found expected : String)
  /-- A value of the right sort is out of range. -/
  | wrongValue (found expected : String)
  /-- A record written as an array has too few elements. -/
  | wrongLength (length : Nat) (expected : String)
deriving DecidableEq, Repr, Inhabited

/-- How a fault is described. A report goes on to give the line and the column, which are not known
here, and a text that is not JSON is described in one way, whatever is wrong with it. -/
def Fault.message : Fault → String
  | .malformed => "malformed JSON text"
  | .missingField name => "missing field `" ++ name ++ "`"
  | .duplicateField name => "duplicate field `" ++ name ++ "`"
  | .unknownVariant name known =>
    "unknown variant `" ++ name ++ "`, expected one of " ++
      ", ".intercalate (known.map fun s => "`" ++ s ++ "`")
  | .wrongType found expected => "invalid type: " ++ found ++ ", expected " ++ expected
  | .wrongValue found expected => "invalid value: " ++ found ++ ", expected " ++ expected
  | .wrongLength length expected =>
    "invalid length " ++ toString length ++ ", expected " ++ expected

/-- The failure that is reported when a document with the given trouble is refused. -/
def refusal (trouble : String) : Failure :=
  .typeMismatch "a well-formed typed IR document" trouble "typed IR decoding"

def Fault.diagnose (f : Fault) : Diagnostic := (refusal f.message).diagnose

end Document

/-- How a value is called in a message. A value without meaning cannot be called anything, since
the text it comes from is malformed. -/
def Json.description? : Json → Option String
  | .null => some "null"
  | .bool b => some ("boolean `" ++ (if b then "true" else "false") ++ "`")
  | .number (.integer n) => some ("integer `" ++ toString n ++ "`")
  | .number (.float x) => some ("floating point `" ++ Json.numberLayout.float x ++ "`")
  | .number .outOfRange => none
  | .string text => text.map fun s => "string " ++ Text.quoted s
  | .array _ => some "sequence"
  | .object _ => some "map"
  | .broken => none

end TreeWasm
