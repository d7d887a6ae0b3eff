-- SUMMARY: The binary module that a registry stands for under given settings.
import TreeWasm.Machine.Code
import TreeWasm.Registry.Basic
import TreeWasm.Settings

/-!
# From a registry to a binary

The types and functions of a registry keep their order and indices. Exports and names are left
out as the settings say. Like all indices of a registry, those in exports and names are integers of
32 bits.
-/

namespace TreeWasm.Registry

/-- The code of a registered function. -/
def codeOf (f : Registered) : Wasm.Code := f.body.code f.locals

/-- The index of the function at a position. -/
def indexAt (position : Nat) : Nat := (UInt32.ofNat position).toNat

/-- The contents of the binary module. -/
def image (r : Registry) (settings : Settings) : Wasm.Image where
  types := r.types.toList
  functions := r.functions.toList.map (·.typeIndex.toNat)
  exports := if settings.exportFunctions then r.names.mapIdx fun i name => ⟨name, indexAt i⟩ else []
  codes := r.functions.toList.map codeOf
  names := if settings.emitNameSection then r.names.mapIdx fun i name => (indexAt i, name) else []

/-- The bytes of the binary module. -/
def encode (r : Registry) (settings : Settings) : List UInt8 := (r.image settings).encode

end TreeWasm.Registry
