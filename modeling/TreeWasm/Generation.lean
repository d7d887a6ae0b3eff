-- SUMMARY: Code generation for whole programs.
import TreeWasm.Registry.Assembly
import TreeWasm.Registry.Image
import TreeWasm.Registry.Listing
import TreeWasm.Wasm.Validation.Report

/-!
# Generation

A request assembles a program onto an empty registry, shows the listing of the registry if the
settings ask for it, encodes the registry and, if the settings ask for that, validates the bytes.
The first failure ends it, and then no bytes come out.
-/

namespace TreeWasm

/-- How a binary that was generated here is called. -/
def generatedSubject : String := "Generated WASM module"

/-- Validate the bytes of a registry. Faults are blamed on functions by their names. -/
def Registry.validate (r : Registry) (bytes : List UInt8) : Except Diagnostic Unit :=
  match Wasm.Validation.validate generatedSubject (r.names[·]?) bytes with
  | .ok () => .ok ()
  | .error failure => .error failure.diagnose

/-- The answer to a request: the listing that is shown, if the settings ask for one, and the binary,
or why there is none. The listing is shown as soon as all functions are assembled, even if there
turns out to be no binary. -/
def respond (program : List Module) (settings : Settings) :
    Option String × Except Diagnostic (List UInt8) :=
  let (outcome, registry) := (assembleProgram program).on {}
  match outcome with
  | .error d => (none, .error d)
  | .ok () =>
    let bytes := registry.encode settings
    (if settings.printModule then some registry.listing else none, do
      if settings.validateOutput then
        registry.validate bytes
      return bytes)

/-- The binary of a program, or why there is none. -/
def generate (program : List Module) (settings : Settings) : Except Diagnostic (List UInt8) :=
  (respond program settings).2

end TreeWasm
