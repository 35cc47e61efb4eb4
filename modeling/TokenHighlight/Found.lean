import TokenHighlight.Number.Shortest
import TokenHighlight.Text.Quoted

/-!
# Descriptions of values in messages

A reader that meets a value of the wrong type says what it has `Found`.  How floating point numbers
are written is up to the format that is read.
-/

namespace TokenHighlight

/-- A value of a type that was not expected. -/
inductive Found where
  /-- No value. -/
  | null
  /-- A truth value. -/
  | bool (b : Bool)
  /-- An integer. -/
  | integer (n : Int)
  /-- A floating point number. -/
  | float (x : Binary64)
  /-- A text. -/
  | text (s : String)
  /-- A sequence. -/
  | sequence
  /-- Named values. -/
  | map
  deriving DecidableEq

namespace Found

/-- The words for a value, given the form of floating point numbers. -/
def describe (floatText : Binary64 → String) : Found → String
  | null => "null"
  | bool true => "boolean `true`"
  | bool false => "boolean `false`"
  | integer n => "integer `" ++ String.ofList (Decimal.ofInt n) ++ "`"
  | float x => "floating point `" ++ floatText x ++ "`"
  | text s => "string " ++ Text.quoted s
  | sequence => "sequence"
  | map => "map"

end Found

/-- The message about a name that is none of a list of choices. -/
def unknownChoice (what name : String) (choices : List String) : String :=
  "unknown " ++ what ++ " `" ++ name ++ "`, expected one of " ++
    String.intercalate ", " (choices.map fun c => "`" ++ c ++ "`")

end TokenHighlight
