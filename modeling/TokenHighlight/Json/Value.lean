import TokenHighlight.Data
import TokenHighlight.Json.Number
import TokenHighlight.Json.Text

/-!
# Reading JSON values

`readValue` reads a value of any type and `read` a text that holds nothing else.  Objects keep all
their fields in order, equal keys included.  Sequences and objects may be nested 127 deep.
-/

namespace TokenHighlight

namespace Json

/-- A value that stands for a word. -/
def wordValue (x : Data) (r : Except ReadError (List Char)) : Reading Data :=
  match r with
  | .error e => .error e
  | .ok cs => .ok (x, cs)

/-- A number as a value. -/
def numberValue (r : Reading Number) : Reading Data :=
  match r with
  | .error e => .error e
  | .ok (.integer n, cs) => .ok (.int n, cs)
  | .ok (.float x, cs) => .ok (.float x, cs)

mutual

/-- A value of any type; `depth` is one more than the depth to which it may be nested. -/
def readValue : Nat → Nat → List Char → Reading Data
  | 0, _, _ => .error .tooDeep
  | fuel + 1, depth, cs =>
      match skipBlanks cs with
      | [] => .error .endInValue
      | 'n' :: cs => wordValue .null (readWord ['u', 'l', 'l'] cs)
      | 't' :: cs => wordValue (.bool true) (readWord ['r', 'u', 'e'] cs)
      | 'f' :: cs => wordValue (.bool false) (readWord ['a', 'l', 's', 'e'] cs)
      | '-' :: cs => numberValue (readNumber true cs)
      | '"' :: cs =>
          match readString cs with
          | .error e => .error e
          | .ok (s, cs) => .ok (.text (String.ofList s), cs)
      | '[' :: cs =>
          if depth ≤ 1 then .error .tooDeep
          else
            match readItems fuel (depth - 1) true cs with
            | .error e => .error e
            | .ok (items, cs) => wordValue (.list items) (endList cs)
      | '\x7b' :: cs =>
          if depth ≤ 1 then .error .tooDeep
          else
            match readFields fuel (depth - 1) true cs with
            | .error e => .error e
            | .ok (fields, cs) => wordValue (.record fields) (endObject cs)
      | c :: cs =>
          if Decimal.isDigit c then numberValue (readNumber false (c :: cs))
          else .error .expectedValue

/-- The items of a sequence up to its closing bracket. -/
def readItems : Nat → Nat → Bool → List Char → Reading (List Data)
  | 0, _, _, _ => .error .tooDeep
  | fuel + 1, depth, first, cs =>
      match nextItem first cs with
      | .error e => .error e
      | .ok none => .ok ([], cs)
      | .ok (some cs) =>
          match readValue fuel depth cs with
          | .error e => .error e
          | .ok (x, cs) =>
              match readItems fuel depth false cs with
              | .error e => .error e
              | .ok (xs, cs) => .ok (x :: xs, cs)

/-- The fields of an object up to its closing brace. -/
def readFields : Nat → Nat → Bool → List Char → Reading (List (String × Data))
  | 0, _, _, _ => .error .tooDeep
  | fuel + 1, depth, first, cs =>
      match nextKey first cs with
      | .error e => .error e
      | .ok none => .ok ([], cs)
      | .ok (some cs) =>
          match readString cs with
          | .error e => .error e
          | .ok (key, cs) =>
              match colon cs with
              | .error e => .error e
              | .ok cs =>
                  match readValue fuel depth cs with
                  | .error e => .error e
                  | .ok (x, cs) =>
                      match readFields fuel depth false cs with
                      | .error e => .error e
                      | .ok (fields, cs) => .ok ((String.ofList key, x) :: fields, cs)

end

/-- Fuel that is enough for a text. -/
def fuelFor (cs : List Char) : Nat := 2 * cs.length + 3

/-- Reads a text that holds a value and nothing but blanks around it. -/
def read (text : String) : Except ReadError Data :=
  let cs := text.toList
  match readValue (fuelFor cs) 128 cs with
  | .error e => .error e
  | .ok (x, cs) => if (skipBlanks cs).isEmpty then .ok x else .error .trailingText

end Json

end TokenHighlight
