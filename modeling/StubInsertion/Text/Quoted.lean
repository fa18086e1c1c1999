import StubInsertion.Text.Blank
import StubInsertion.Text.GraphemeExtend
import StubInsertion.Text.Unprintable

/-!
# Quoted text

How a text is shown inside a message: in double quotes, with every character escaped that a reader
could not see or could mistake for the quotation itself. `isHidden` says which characters those are,
`escape` how one is written.
-/

namespace StubInsertion.Text

/-- A character that joins the one before it or has no visible form. -/
def isHidden (c : Char) : Bool :=
  inRanges graphemeExtend c.toNat || inRanges unprintable c.toNat || inRanges ignorable c.toNat

/-- One character inside quotes. -/
def escape (c : Char) : List Char :=
  if c = '\x00' then ['\\', '0']
  else if c = '\t' then ['\\', 't']
  else if c = '\n' then ['\\', 'n']
  else if c = '\r' then ['\\', 'r']
  else if c = '"' then ['\\', '"']
  else if c = '\\' then ['\\', '\\']
  else if isHidden c then '\\' :: 'u' :: '\x7b' :: (Nat.toDigits 16 c.toNat ++ ['\x7d'])
  else [c]

/-- The text in double quotes. -/
def quoted (s : String) : String := String.ofList ('"' :: (s.toList.flatMap escape ++ ['"']))

end StubInsertion.Text
