-- SUMMARY: Assembly of functions, modules and programs onto a registry.
import TreeWasm.Lowering.Body
import TreeWasm.Registry.Basic
import TreeWasm.Tree.Program

/-!
# Assembly

A function is checked part by part: its parameters, its return type, its body, and then its
locals. Only if all parts stand is it registered. A module is assembled function by function and a
program module by module, up to the first failure; what was registered before stays.
-/

namespace TreeWasm

/-- A function whose parts all have machine representations. -/
structure Assembled where
  type : Wasm.FuncType
  locals : List Wasm.ValType
  body : Node
deriving Repr, Inhabited

namespace Function

/-- The node of a body. No frame may be left open. -/
def lowerBody (f : Function) : Except Refusal Node :=
  let (outcome, frames) := f.body.lower.on {}
  match outcome with
  | .ok body => if frames.isBalanced then .ok body else .error .framesLeftOpen
  | .error refusal => .error refusal

/-- The parts of a function, or the first refusal among them. A function that returns `Never` has
no result. -/
def assembled (f : Function) : Except Refusal Assembled := do
  let params ← f.params.mapM (·.slotType "function parameter")
  let result ← f.returnType.machineType
  let body ← f.lowerBody
  let locals ← f.locals.mapM (·.slotType "local slot")
  return ⟨⟨params, result.valType?.toList⟩, locals, body⟩

end Function

/-- Computations that keep a registry and may fail. The registry outlives a failure. -/
abbrev Assembling (α : Type) : Type := ExceptT Diagnostic (StateM Registry) α

namespace Assembling

/-- Run a computation on a registry. Gives back the outcome and the registry after it. -/
def on (c : Assembling α) (r : Registry) : Except Diagnostic α × Registry := c r

/-- Register an assembled function under its qualified name. -/
def register (name : String) (f : Assembled) : Assembling UInt32 := do
  let registry ← get
  let (index, registry) := registry.addFunction name f.type f.locals f.body
  set registry
  return index

end Assembling

/-- Assemble a function of the named module. Gives back its index. A failure names the function. -/
def Function.assemble (f : Function) (moduleName : String) : Assembling UInt32 :=
  let name := qualifiedName moduleName f.name
  match f.assembled with
  | .ok parts => Assembling.register name parts
  | .error refusal => throw (refusal.diagnose.withEntry .functionName name)

/-- Assemble functions of the named module in order. -/
def assembleAll (moduleName : String) : List Function → Assembling Unit
  | [] => pure ()
  | f :: fs => do
    let _ ← f.assemble moduleName
    assembleAll moduleName fs

/-- Assemble the functions of a module in order. -/
def Module.assemble (m : Module) : Assembling Unit := assembleAll m.name m.functions

/-- Assemble the modules of a program in order. -/
def assembleProgram : List Module → Assembling Unit
  | [] => pure ()
  | m :: ms => do
    m.assemble
    assembleProgram ms

end TreeWasm
