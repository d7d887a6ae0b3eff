-- SUMMARY: JSON values written as indented texts.
import TreeWasm.Decimal.Layout
import TreeWasm.Json.Basic
import TreeWasm.Json.Text
import TreeWasm.Text.Line

/-!
# Printing

Each element and each member starts a line, two spaces further in than its container. Containers
without parts stay on one line.
-/

namespace TreeWasm.Json

/-- JSON writes floating-point numbers positionally from `0.00001` up to below `10 ^ 16`, with a
sign on a positive exponent. -/
def numberLayout : Layout where
  plainFrom := -5
  plainUpTo := 15
  plusOnExponent := true
  tie := .even

def Number.print : Number → String
  | .integer value => toString value
  | .float value => numberLayout.float value
  | .outOfRange => ""

def Key.print : Key → String
  | .text name => quote name
  | .unreadable => ""
  | .absent => ""

/-- A line feed and the margin of the line after it. -/
def newLine (indent : Nat) : String := "\n" ++ Line.margin indent

mutual

/-- The text of a value whose container stands at a level. -/
def print (indent : Nat) : Json → String
  | .null => "null"
  | .bool value => if value then "true" else "false"
  | .number value => value.print
  | .string text => quote (text.getD "")
  | .array [] => "[]"
  | .array (v :: vs) =>
    "[" ++ newLine (indent + 1) ++ print (indent + 1) v ++ printElements (indent + 1) vs ++
      newLine indent ++ "]"
  | .object [] => "\x7b\x7d"
  | .object ((key, v) :: members) =>
    "\x7b" ++ newLine (indent + 1) ++ key.print ++ ": " ++ print (indent + 1) v ++
      printMembers (indent + 1) members ++ newLine indent ++ "\x7d"
  | .broken => ""

/-- The elements of an array after the first. -/
def printElements (indent : Nat) : List Json → String
  | [] => ""
  | v :: vs => "," ++ newLine indent ++ print indent v ++ printElements indent vs

/-- The members of an object after the first. -/
def printMembers (indent : Nat) : List (Key × Json) → String
  | [] => ""
  | (key, v) :: members =>
    "," ++ newLine indent ++ key.print ++ ": " ++ print indent v ++ printMembers indent members

end

/-- The text of a value. -/
def toText (v : Json) : String := v.print 0

end TreeWasm.Json
