-- SUMMARY: The listing of a registry as one indented s-expression.
import TreeWasm.Machine.Listing
import TreeWasm.Registry.Basic

/-!
# Listing of a registry

The types come first, each with its index, and then the functions with their signature, their
local slots and their body.
-/

namespace TreeWasm

/-- The word for a value type in a list of them. References and vectors share one. -/
def Wasm.ValType.listingName : Wasm.ValType → String
  | .v128 | .ref _ => "ref"
  | t => t.name

/-- A clause of value types, or nothing if there are none. -/
def typesClause (word : String) (types : List Wasm.ValType) : String :=
  if types.isEmpty then ""
  else " (" ++ word ++ String.join (types.map (" " ++ ·.listingName)) ++ ")"

def Wasm.FuncType.clauses (t : Wasm.FuncType) : String :=
  typesClause "param" t.params ++ typesClause "result" t.results

namespace Registry

def typeLine (index : Nat) (type : Wasm.FuncType) : Line :=
  ⟨1, "(type (;" ++ toString index ++ ";) (func" ++ type.clauses ++ "))"⟩

/-- The lines of a function. An index without a type shows no signature. -/
def functionLines (r : Registry) (f : Registered) : List Line :=
  ⟨1, "(func $" ++ f.name ++ ((r.type? f.typeIndex).map (·.clauses)).getD ""⟩ ::
    ((if f.locals.isEmpty then []
      else [⟨2, "(local" ++ String.join (f.locals.map (" " ++ ·.listingName)) ++ ")"⟩]) ++
      f.body.lines 2 ++ [⟨1, ")"⟩])

def lines (r : Registry) : List Line :=
  ⟨0, "(module"⟩ ::
    (r.types.toList.mapIdx typeLine ++ r.functions.toList.flatMap r.functionLines ++ [⟨0, ")"⟩])

/-- The text of the listing. -/
def listing (r : Registry) : String := Line.renderAll r.lines

end Registry

end TreeWasm
