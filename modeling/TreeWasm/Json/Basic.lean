-- SUMMARY: JSON values as far as a text spells them out.
import TreeWasm.Binary64.Basic

/-!
# JSON values

A value read from a text may break off where the text stops being JSON. `broken` marks that place:
everything before it is there, nothing behind it is. In an object that breaks off where a key is
due, `broken` stands under a key that is `absent`.

Some texts are JSON by their grammar and still mean nothing: numbers beyond the range, and strings
with half a surrogate pair. They are kept as such, since a reader that skips a value does not look
into them.
-/

namespace TreeWasm

namespace Json

inductive Number where
  | integer (value : Int)
  | float (value : Binary64)
  | outOfRange
deriving DecidableEq, Repr, Inhabited

/-- What stands where an object's member has its key. -/
inductive Key where
  | text (name : String)
  /-- A string that spells no text. -/
  | unreadable
  /-- No string at all. -/
  | absent
deriving DecidableEq, Repr, Inhabited

end Json

inductive Json where
  | null
  | bool (value : Bool)
  | number (value : Json.Number)
  /-- A string, if it spells a text. -/
  | string (text : Option String)
  | array (elements : List Json)
  | object (members : List (Json.Key × Json))
  | broken
deriving BEq, Repr, Inhabited

namespace Json

mutual

/-- The text of the value is JSON to its end. -/
def isWhole : Json → Bool
  | .null | .bool _ | .number _ | .string _ => true
  | .array elements => areWhole elements
  | .object members => membersWhole members
  | .broken => false

def areWhole : List Json → Bool
  | [] => true
  | v :: vs => v.isWhole && areWhole vs

def membersWhole : List (Key × Json) → Bool
  | [] => true
  | (key, v) :: members => key != .absent && v.isWhole && membersWhole members

end

end Json

end TreeWasm
