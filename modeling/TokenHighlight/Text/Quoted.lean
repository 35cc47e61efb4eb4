import TokenHighlight.Text.Hex
import TokenHighlight.Text.Hidden

/-!
# Quoted texts in messages

`quoted` shows a text between quotation marks.  Quotation marks and backslashes are escaped, and so
is every character that cannot be seen.
-/

namespace TokenHighlight

namespace Text

/-- A character of a quoted text. -/
def escapeShown (c : Char) : List Char :=
  if c.toNat = 0 then ['\\', '0']
  else if c = '\t' then ['\\', 't']
  else if c = '\n' then ['\\', 'n']
  else if c = '\r' then ['\\', 'r']
  else if c = '"' then ['\\', '"']
  else if c = '\\' then ['\\', '\\']
  else if isHidden c then '\\' :: 'u' :: '\x7b' :: Hex.minimal c.toNat ++ ['\x7d']
  else [c]

/-- The text between quotation marks. -/
def quoted (s : String) : String :=
  String.ofList ('"' :: s.toList.flatMap escapeShown ++ ['"'])

end Text

end TokenHighlight
