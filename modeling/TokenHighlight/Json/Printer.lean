import TokenHighlight.Data
import TokenHighlight.Number.Shortest
import TokenHighlight.Text.Hex

/-!
# Writing JSON

`Json.pretty` writes a value with two spaces of indentation.  Empty sequences and records stay on
one line.  Texts are quoted: only quotation marks, backslashes and control characters are escaped.
-/

namespace TokenHighlight

namespace Json

/-- A character inside a quoted text. -/
def escape (c : Char) : List Char :=
  if c = '"' then ['\\', '"']
  else if c = '\\' then ['\\', '\\']
  else if c = '\n' then ['\\', 'n']
  else if c = '\r' then ['\\', 'r']
  else if c = '\t' then ['\\', 't']
  else if c.toNat = 8 then ['\\', 'b']
  else if c.toNat = 12 then ['\\', 'f']
  else if c.toNat < 32 then '\\' :: 'u' :: Hex.fixed Hex.lower 4 c.toNat
  else [c]

/-- A quoted text. -/
def quote (cs : List Char) : List Char :=
  '"' :: cs.flatMap escape ++ ['"']

/-- A line feed and the indentation of a depth. -/
def newline (depth : Nat) : List Char :=
  '\n' :: List.replicate (2 * depth) ' '

mutual

/-- A value at a depth of nesting. -/
def prettyAt (depth : Nat) : Data → List Char
  | .null => "null".toList
  | .bool true => "true".toList
  | .bool false => "false".toList
  | .int n => Decimal.ofInt n
  | .float x => x.compact.toList
  | .text s => quote s.toList
  | .list [] => "[]".toList
  | .list (x :: xs) =>
      '[' :: newline (depth + 1) ++ prettyAt (depth + 1) x ++ prettyItems (depth + 1) xs ++
        newline depth ++ [']']
  | .record [] => ['\x7b', '\x7d']
  | .record (f :: fs) =>
      '\x7b' :: newline (depth + 1) ++ prettyField (depth + 1) f ++ prettyFields (depth + 1) fs ++
        newline depth ++ ['\x7d']

/-- The items of a sequence after the first. -/
def prettyItems (depth : Nat) : List Data → List Char
  | [] => []
  | x :: xs => ',' :: newline depth ++ prettyAt depth x ++ prettyItems depth xs

/-- A named value. -/
def prettyField (depth : Nat) : String × Data → List Char
  | (name, x) => quote name.toList ++ ": ".toList ++ prettyAt depth x

/-- The fields of a record after the first. -/
def prettyFields (depth : Nat) : List (String × Data) → List Char
  | [] => []
  | f :: fs => ',' :: newline depth ++ prettyField depth f ++ prettyFields depth fs

end

/-- The JSON text of a value. -/
def pretty (x : Data) : String :=
  String.ofList (prettyAt 0 x)

end Json

end TokenHighlight
