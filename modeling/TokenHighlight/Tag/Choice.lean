import TokenHighlight.Data
import TokenHighlight.Found
import TokenHighlight.Tag

/-!
# Reading tags from data

A tag or a classification is given by its name, or by a record whose only field has that name and
holds no value.  `ChoiceError` lists what may be wrong, in the order of the checks.
-/

namespace TokenHighlight

/-- Why a value names none of the choices. -/
inductive ChoiceError where
  /-- The name is not among the choices. -/
  | unknownVariant (name : String) (choices : List String)
  /-- The value is neither a text nor a record. -/
  | wrongType (found : Found)
  /-- The record has not exactly one field. -/
  | notSingle
  /-- The only field of the record holds a value. -/
  | notUnit (found : Found)
  deriving DecidableEq

namespace ChoiceError

/-- The message about a value that names none of the choices. -/
def message : ChoiceError → String
  | unknownVariant name choices => unknownChoice "variant" name choices
  | wrongType found =>
      "invalid type: " ++ found.describe Binary64.compact ++ ", expected string or map"
  | notSingle => "invalid value: map, expected map with a single key"
  | notUnit found => "invalid type: " ++ found.describe Binary64.compact ++ ", expected unit"

end ChoiceError

namespace Data

/-- What kind of value this is. -/
def found : Data → Found
  | null => .null
  | bool b => .bool b
  | int n => .integer n
  | float x => .float x
  | text s => .text s
  | list _ => .sequence
  | record _ => .map

/-- Reads one of a list of named choices. -/
def choice {α : Type} (ofName? : String → Option α) (choices : List String) :
    Data → Except ChoiceError α
  | text s =>
      match ofName? s with
      | some a => .ok a
      | none => .error (.unknownVariant s choices)
  | record [(s, x)] =>
      match ofName? s, x with
      | none, _ => .error (.unknownVariant s choices)
      | some a, null => .ok a
      | some _, x => .error (.notUnit x.found)
  | record _ => .error .notSingle
  | x => .error (.wrongType x.found)

end Data

/-- Reads a tag. -/
def Tag.ofData (x : Data) : Except ChoiceError Tag :=
  x.choice Tag.ofName? (Tag.all.map Tag.name)

/-- Reads a classification. -/
def Classification.ofData (x : Data) : Except ChoiceError Classification :=
  x.choice Classification.ofName? (Classification.all.map Classification.name)

end TokenHighlight
