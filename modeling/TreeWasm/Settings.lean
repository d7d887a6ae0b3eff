-- SUMMARY: The settings of a code generation request.

/-!
# Settings

Four switches. `TreeWasm.Settings.Reading` reads them from a configuration text.
-/

namespace TreeWasm

structure Settings where
  /-- Write the names of the functions into the binary. -/
  emitNameSection : Bool := true
  /-- Export every function under its qualified name. -/
  exportFunctions : Bool := false
  /-- Validate the binary before it is handed out. -/
  validateOutput : Bool := false
  /-- Show the listing of the registry. It does not touch the binary. -/
  printModule : Bool := false
deriving DecidableEq, Repr, Inhabited

end TreeWasm
