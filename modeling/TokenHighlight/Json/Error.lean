import TokenHighlight.Found

/-!
# Errors of a JSON reader

`Json.ReadError` lists what can be wrong with a JSON text, first in its syntax and then in its
shape.
-/

namespace TokenHighlight

namespace Json

/-- Why a JSON text cannot be read. -/
inductive ReadError where
  /-- The text ends where a value is expected. -/
  | endInValue
  /-- The text ends inside a sequence. -/
  | endInList
  /-- The text ends inside an object. -/
  | endInObject
  /-- The text ends inside a string. -/
  | endInString
  /-- A key has no colon after it. -/
  | expectedColon
  /-- An item has neither a comma nor a closing bracket after it. -/
  | expectedListEnd
  /-- A field has neither a comma nor a closing brace after it. -/
  | expectedObjectEnd
  /-- A word is none of the three that JSON knows. -/
  | expectedWord
  /-- A character starts no value. -/
  | expectedValue
  /-- A backslash has a wrong character or wrong digits after it. -/
  | invalidEscape
  /-- A number is malformed. -/
  | invalidNumber
  /-- A number is too large. -/
  | numberOutOfRange
  /-- Half of a surrogate pair stands alone. -/
  | loneSurrogate
  /-- The second half of a surrogate pair is missing. -/
  | endOfEscape
  /-- A control character stands in a string. -/
  | controlCharacter
  /-- A key is no string. -/
  | keyNotString
  /-- A comma has no item after it. -/
  | trailingComma
  /-- There is more text than expected. -/
  | trailingText
  /-- Values are nested too deeply. -/
  | tooDeep
  /-- A value has the wrong type. -/
  | wrongType (found : Found) (expected : String)
  /-- An integer is outside the range of its type. -/
  | wrongInteger (n : Int) (expected : String)
  /-- A sequence is too short. -/
  | wrongLength (n : Nat) (expected : String)
  /-- An object lacks a field. -/
  | missingField (name : String)
  /-- An object has a field twice. -/
  | duplicateField (name : String)
  /-- A kind is neither an integer nor a string. -/
  | noVariant
  deriving DecidableEq

/-- The message about a JSON text that cannot be read. -/
def ReadError.message : ReadError → String
  | endInValue => "EOF while parsing a value"
  | endInList => "EOF while parsing a list"
  | endInObject => "EOF while parsing an object"
  | endInString => "EOF while parsing a string"
  | expectedColon => "expected `:`"
  | expectedListEnd => "expected `,` or `]`"
  | expectedObjectEnd => "expected `,` or `\x7d`"
  | expectedWord => "expected ident"
  | expectedValue => "expected value"
  | invalidEscape => "invalid escape"
  | invalidNumber => "invalid number"
  | numberOutOfRange => "number out of range"
  | loneSurrogate => "lone leading surrogate in hex escape"
  | endOfEscape => "unexpected end of hex escape"
  | controlCharacter => "control character (\\u0000-\\u001F) found while parsing a string"
  | keyNotString => "key must be a string"
  | trailingComma => "trailing comma"
  | trailingText => "trailing characters"
  | tooDeep => "recursion limit exceeded"
  | wrongType found expected =>
      "invalid type: " ++ found.describe Binary64.compact ++ ", expected " ++ expected
  | wrongInteger n expected =>
      "invalid value: " ++ (Found.integer n).describe Binary64.compact ++ ", expected " ++ expected
  | wrongLength n expected =>
      "invalid length " ++ String.ofList (Decimal.ofNat n) ++ ", expected " ++ expected
  | missingField name => "missing field `" ++ name ++ "`"
  | duplicateField name => "duplicate field `" ++ name ++ "`"
  | noVariant => "data did not match any variant of untagged enum RawKind"

/-- The outcome of reading the start of a text: what was read and the rest, or an error. -/
abbrev Reading (α : Type) := Except ReadError (α × List Char)

end Json

end TokenHighlight
