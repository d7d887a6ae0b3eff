-- SUMMARY: Texts quoted inside messages.
import TreeWasm.Text.Unprintable

/-!
# Quoted texts

A message shows a text between quotes. Quotes and backslashes carry a backslash, the common
control characters a letter behind one, and all other unprintable characters are shown by their
number in braces.
-/

namespace TreeWasm.Text

/-- A character shown by its number. -/
def byNumber (c : Char) : List Char :=
  '\\' :: 'u' :: '\x7b' :: Nat.toDigits 16 c.toNat ++ ['\x7d']

def quoteChar (c : Char) : List Char :=
  if c = '"' then ['\\', '"']
  else if c = '\\' then ['\\', '\\']
  else if c = '\n' then ['\\', 'n']
  else if c = '\r' then ['\\', 'r']
  else if c = '\t' then ['\\', 't']
  else if c = '\x00' then ['\\', '0']
  else if c.toNat < 0x20 then byNumber c
  else if c.toNat < 0x7f then [c]
  else if isUnprintable c then byNumber c
  else [c]

/-- The text between quotes. -/
def quoted (s : String) : String := String.ofList ('"' :: s.toList.flatMap quoteChar ++ ['"'])

end TreeWasm.Text
