import TokenHighlight.Toml.Text

/-!
# Writing TOML texts

`basicString` writes a string on one line.  `keyText` writes a key: without quotes if that is
possible, else as a basic string unless a literal string saves escapes.
-/

namespace TokenHighlight

namespace Toml

/-- Whether a character has to be written by its code. -/
def isControl (c : Char) : Bool :=
  let n := c.toNat
  n < 0x20 || n == 0x7F

/-- A character inside a basic string. -/
def escapeBasic (c : Char) : List Char :=
  if c = '"' then ['\\', '"']
  else if c = '\\' then ['\\', '\\']
  else if c = '\x08' then ['\\', 'b']
  else if c = '\t' then ['\\', 't']
  else if c = '\n' then ['\\', 'n']
  else if c = '\x0c' then ['\\', 'f']
  else if c = '\r' then ['\\', 'r']
  else if isControl c then '\\' :: 'u' :: Hex.fixed Hex.upper 4 c.toNat
  else [c]

/-- A basic string. -/
def basicString (cs : List Char) : List Char :=
  '"' :: cs.flatMap escapeBasic ++ ['"']

/-- A literal string, for a text without single quotes and control characters. -/
def literalString (cs : List Char) : List Char :=
  '\x27' :: cs ++ ['\x27']

/-- Whether a text holds control characters other than tabs. -/
def needsCodes (cs : List Char) : Bool :=
  cs.any fun c => isControl c && c != '\t'

/-- A key. -/
def keyText (cs : List Char) : List Char :=
  if !cs.isEmpty && cs.all isBare then cs
  else if needsCodes cs then basicString cs
  else if cs.any (fun c => c == '"' || c == '\\') && !cs.contains '\x27' then literalString cs
  else basicString cs

end Toml

end TokenHighlight
