import TokenHighlight.Number.Binary64

/-!
# Data

`Data` is the common form of what the program writes as JSON or YAML and of the values that tags are
read from.
-/

namespace TokenHighlight

/-- A tree of plain values; the fields of a record keep their order. -/
inductive Data where
  /-- No value. -/
  | null
  /-- A truth value. -/
  | bool (b : Bool)
  /-- An integer. -/
  | int (n : Int)
  /-- A floating point number. -/
  | float (x : Binary64)
  /-- A text. -/
  | text (s : String)
  /-- A sequence. -/
  | list (items : List Data)
  /-- Named values. -/
  | record (fields : List (String × Data))

namespace Data

/-- A text, or no value. -/
def ofText? : Option String → Data
  | none => null
  | some s => text s

end Data

end TokenHighlight
