import TokenHighlight.Text.Hex

/-!
# YAML scalars

A text is written plain if a reader takes the plain form for the same text.  Otherwise it stands in
single quotes, and in double quotes with escapes if it has characters that cannot be shown or blanks
beside a line break.  Plain texts that look like numbers are no concern here: names and spellings
never do.
-/

namespace TokenHighlight

namespace Yaml

/-- Whether a character may stand for itself in YAML. -/
def isPrintable (c : Char) : Bool :=
  let n := c.toNat
  n == 0x0A || (0x20 ≤ n && n ≤ 0x7E) || (0xA0 ≤ n && n != 0xFEFF && n != 0xFFFE && n != 0xFFFF)

/-- Whether a character ends a line in YAML. -/
def isBreak (c : Char) : Bool :=
  let n := c.toNat
  n == 0x0A || n == 0x0D || n == 0x85 || n == 0x2028 || n == 0x2029

/-- Whether a character separates words in YAML. -/
def isGap (c : Char) : Bool :=
  c == ' ' || c == '\t' || isBreak c

/-- Texts that stand for no value or a truth value when they are plain. -/
def reserved : List String :=
  ["", "~", "null", "Null", "NULL", "true", "True", "TRUE", "false", "False", "FALSE"]

/-- Characters that have a meaning at the start of a plain text. -/
def indicators : List Char :=
  ['#', ',', '[', ']', '\x7b', '\x7d', '&', '*', '!', '|', '>', '\x27', '"', '%', '@', '\x60']

/-- Whether the next character, if any, is a gap. -/
def beforeGap : List Char → Bool
  | [] => true
  | c :: _ => isGap c

/-- Whether a mark inside a plain text would end it: a colon before a gap or a hash after one. -/
def hasMark : Bool → List Char → Bool
  | _, [] => false
  | afterGap, c :: cs =>
      (c == ':' && beforeGap cs) || (c == '#' && afterGap) || hasMark (isGap c) cs

/-- Whether the start of a text has a meaning in YAML. -/
def startsWithMark : List Char → Bool
  | [] => false
  | c :: cs =>
      indicators.contains c || ((c == '-' || c == '?' || c == ':') && beforeGap cs) ||
        "---".toList.isPrefixOf (c :: cs) || "...".toList.isPrefixOf (c :: cs)

/-- Whether a text can be written without quotes. -/
def isPlain (cs : List Char) : Bool :=
  !reserved.contains (String.ofList cs) && !startsWithMark cs && !hasMark false cs &&
    cs.head? != some ' ' && cs.getLast? != some ' ' && cs.all isPrintable && !cs.any isBreak

/-- Whether a line break stands beside a space. -/
def hasSpacedBreak : List Char → Bool
  | c :: d :: cs =>
      (c == ' ' && isBreak d) || (isBreak c && d == ' ') || hasSpacedBreak (d :: cs)
  | _ => false

/-- A character inside double quotes. -/
def escape (c : Char) : List Char :=
  let n := c.toNat
  if c = '"' then ['\\', '"']
  else if c = '\\' then ['\\', '\\']
  else if isPrintable c && !isBreak c then [c]
  else if n = 0x00 then ['\\', '0']
  else if n = 0x07 then ['\\', 'a']
  else if n = 0x08 then ['\\', 'b']
  else if n = 0x09 then ['\\', 't']
  else if n = 0x0A then ['\\', 'n']
  else if n = 0x0B then ['\\', 'v']
  else if n = 0x0C then ['\\', 'f']
  else if n = 0x0D then ['\\', 'r']
  else if n = 0x1B then ['\\', 'e']
  else if n = 0x85 then ['\\', 'N']
  else if n = 0x2028 then ['\\', 'L']
  else if n = 0x2029 then ['\\', 'P']
  else if n ≤ 0xFF then '\\' :: 'x' :: Hex.fixed Hex.upper 2 n
  else if n ≤ 0xFFFF then '\\' :: 'u' :: Hex.fixed Hex.upper 4 n
  else '\\' :: 'U' :: Hex.fixed Hex.upper 8 n

/-- The characters between single quotes.  A single quote is doubled, and the line after a break is
indented. -/
def singleQuoted (indent : Nat) : Bool → List Char → List Char
  | afterBreak, [] => if afterBreak then List.replicate indent ' ' else []
  | afterBreak, c :: cs =>
      if isBreak c then c :: singleQuoted indent true cs
      else
        (if afterBreak then List.replicate indent ' ' else []) ++
          (if c = '\x27' then ['\x27', '\x27'] else [c]) ++ singleQuoted indent false cs

/-- The form of a text whose continuation lines are indented by `indent`. -/
def scalar (indent : Nat) (cs : List Char) : List Char :=
  if isPlain cs then cs
  else if cs.all isPrintable && !hasSpacedBreak cs then
    '\x27' :: singleQuoted indent false cs ++ ['\x27']
  else '"' :: cs.flatMap escape ++ ['"']

end Yaml

end TokenHighlight
