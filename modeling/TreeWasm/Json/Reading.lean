-- SUMMARY: JSON values read from texts, with the place where a text stops being JSON marked in the value.
import TreeWasm.Json.Token

/-!
# Reading

The reader takes one token at a time and keeps the containers that are open. A container in the
making holds what it has so far, the last part first. At the end of the text, or at a token that
does not fit, the open containers are closed around a `broken` value.
-/

namespace TreeWasm.Json

/-- A container in the making. -/
inductive Open where
  | array (elements : List Json)
  | object (members : List (Key × Json))
  /-- An object and the key whose value comes next. -/
  | member (members : List (Key × Json)) (key : Key)
deriving Repr, Inhabited

/-- What may come next. -/
inductive Expecting where
  | value
  /-- A value, or the end of an array without elements. -/
  | element
  /-- A key, or the end of an object without members. -/
  | key
  /-- A key behind a comma. -/
  | nextKey
  | colon
  /-- A comma, or the end of the innermost container. -/
  | next
  /-- Nothing but the end of the text. -/
  | finish
deriving DecidableEq, Repr, Inhabited

/-- The containers in the making, innermost first, what may come next, and the value of the whole
text once it is complete. -/
structure State where
  stack : List Open := []
  expecting : Expecting := .value
  result : Json := .broken
deriving Repr, Inhabited

/-- A value and whether the text holds it and nothing else. -/
structure Document where
  value : Json
  complete : Bool
deriving Repr, Inhabited

/-- Put a finished value where it belongs. -/
def deliver (v : Json) : List Open → State
  | [] => ⟨[], .finish, v⟩
  | .array elements :: stack => ⟨.array (v :: elements) :: stack, .next, .broken⟩
  | .member members key :: stack => ⟨.object ((key, v) :: members) :: stack, .next, .broken⟩
  | .object members :: stack => ⟨.object ((.absent, v) :: members) :: stack, .next, .broken⟩

/-- Close all containers around a last value. -/
def collapse (v : Json) : List Open → Json
  | [] => v
  | .array elements :: stack => collapse (.array (v :: elements).reverse) stack
  | .member members key :: stack => collapse (.object ((key, v) :: members).reverse) stack
  | .object members :: stack => collapse (.object ((.absent, v) :: members).reverse) stack

/-- The value that a token is by itself. -/
def Token.scalar? : Token → Option Json
  | .null => some .null
  | .bool b => some (.bool b)
  | .number n => some (.number n)
  | .string s => some (.string s)
  | _ => none

def Key.ofText : Option String → Key
  | some s => .text s
  | none => .unreadable

/-- Take a token where a value is due. -/
def State.takeValue (stack : List Open) : Token → Except Json State
  | .openBracket => .ok ⟨.array [] :: stack, .element, .broken⟩
  | .openBrace => .ok ⟨.object [] :: stack, .key, .broken⟩
  | t =>
    match t.scalar? with
    | some v => .ok (deliver v stack)
    | none => .error (collapse .broken stack)

/-- Take a token where a key is due. Nothing but a string will do. -/
def State.takeKey : List Open → Token → Except Json State
  | .object members :: stack, .string s =>
    .ok ⟨.member members (.ofText s) :: stack, .colon, .broken⟩
  | stack, _ => .error (collapse .broken stack)

/-- Take a token. Where it does not fit, the value breaks off. -/
def State.take (s : State) (t : Token) : Except Json State :=
  match s.expecting, t, s.stack with
  | .value, t, stack => State.takeValue stack t
  | .element, .closeBracket, .array elements :: stack =>
    .ok (deliver (.array elements.reverse) stack)
  | .element, t, stack => State.takeValue stack t
  | .key, .closeBrace, .object members :: stack => .ok (deliver (.object members.reverse) stack)
  | .key, t, stack => State.takeKey stack t
  | .nextKey, t, stack => State.takeKey stack t
  | .colon, .colon, stack => .ok ⟨stack, .value, .broken⟩
  | .next, .comma, .array elements :: stack => .ok ⟨.array elements :: stack, .value, .broken⟩
  | .next, .comma, .object members :: stack => .ok ⟨.object members :: stack, .nextKey, .broken⟩
  | .next, .closeBracket, .array elements :: stack => .ok (deliver (.array elements.reverse) stack)
  | .next, .closeBrace, .object members :: stack => .ok (deliver (.object members.reverse) stack)
  | _, _, stack => .error (collapse .broken stack)

/-- Take tokens to the end. -/
def State.run (s : State) : List Token → Document
  | [] =>
    if s.expecting = .finish then ⟨s.result, true⟩ else ⟨collapse .broken s.stack, false⟩
  | t :: ts =>
    if s.expecting = .finish then ⟨s.result, false⟩
    else
      match s.take t with
      | .ok s => s.run ts
      | .error v => ⟨v, false⟩

/-- The document that a text holds. -/
def ofText (text : String) : Document := State.run {} (tokens text.toList)

end TreeWasm.Json
