import TokenHighlight.Data
import TokenHighlight.Number.Shortest
import TokenHighlight.Yaml.Scalar

/-!
# Writing YAML

`Yaml.block` writes a value in block style.  A sequence under a key is not indented further than the
key; a sequence or record inside a sequence begins on the line of its dash.
-/

namespace TokenHighlight

namespace Yaml

/-- A line feed and an indentation. -/
def newline (indent : Nat) : List Char :=
  '\n' :: List.replicate indent ' '

/-- What stands between the colon after a name and a value: a line feed if the value has items or
fields. -/
def lead (indent : Nat) : Data → List Char
  | .list (_ :: _) => newline indent
  | .record (_ :: _) => newline (indent + 2)
  | _ => [' ']

/-- The indentation of a value under a name.  Only fields are indented further than the name. -/
def valueIndent (indent : Nat) : Data → Nat
  | .record (_ :: _) => indent + 2
  | _ => indent

mutual

/-- A value, begun on the current line, whose further lines are indented by `indent`. -/
def blockAt (indent : Nat) : Data → List Char
  | .null => "null".toList
  | .bool true => "true".toList
  | .bool false => "false".toList
  | .int n => Decimal.ofInt n
  | .float x => x.compact.toList
  | .text s => scalar indent s.toList
  | .list [] => "[]".toList
  | .list (x :: xs) => '-' :: ' ' :: blockAt (indent + 2) x ++ blockItems indent xs
  | .record [] => ['\x7b', '\x7d']
  | .record (f :: fs) => blockField indent f ++ blockFields indent fs

/-- The items of a sequence after the first. -/
def blockItems (indent : Nat) : List Data → List Char
  | [] => []
  | x :: xs => newline indent ++ '-' :: ' ' :: blockAt (indent + 2) x ++ blockItems indent xs

/-- A named value. -/
def blockField (indent : Nat) : String × Data → List Char
  | (name, x) =>
      scalar (indent + 2) name.toList ++ ':' :: lead indent x ++ blockAt (valueIndent indent x) x

/-- The fields of a record after the first. -/
def blockFields (indent : Nat) : List (String × Data) → List Char
  | [] => []
  | f :: fs => newline indent ++ blockField indent f ++ blockFields indent fs

end

/-- The YAML text of a value, ended by a line feed. -/
def block (x : Data) : String :=
  String.ofList (blockAt 0 x ++ ['\n'])

end Yaml

end TokenHighlight
