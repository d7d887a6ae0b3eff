-- SUMMARY: Functions and modules of the typed tree language, and the qualified names functions are registered under.
import TreeWasm.Tree.Instruction

/-!
# Functions and modules

A program is a list of modules, a module a named list of functions. The parameters of a function
take the first local indices and `locals` the ones after them.
-/

namespace TreeWasm

structure Function where
  name : String
  params : List ValueType
  returnType : ValueType
  locals : List ValueType
  body : Instruction
deriving BEq, Repr, Inhabited

structure Module where
  name : String
  functions : List Function
deriving BEq, Repr, Inhabited

/-- The name a function is registered under. Nothing separates the two parts, so different pairs
can share a qualified name. -/
def qualifiedName (moduleName functionName : String) : String := moduleName ++ functionName

/-- The functions of a program in order, each with the name of its module. -/
def flatten (program : List Module) : List (String × Function) :=
  program.flatMap fun m => m.functions.map (m.name, ·)

end TreeWasm
