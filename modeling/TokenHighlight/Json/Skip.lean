import TokenHighlight.Json.Number
import TokenHighlight.Json.Text

/-!
# Values that are of no interest

`skipValue` moves behind a value without keeping it.  It checks the syntax of the value, but not how
deeply it is nested.
-/

namespace TokenHighlight

namespace Json

/-- A sequence or object that has been opened. -/
inductive Frame where
  /-- A sequence. -/
  | list
  /-- An object. -/
  | object
  deriving DecidableEq

namespace Frame

/-- The closing mark. -/
def closing : Frame → Char
  | list => ']'
  | object => '\x7d'

/-- The error of a missing comma or closing mark. -/
def missingEnd : Frame → ReadError
  | list => .expectedListEnd
  | object => .expectedObjectEnd

/-- The error of a text that ends inside. -/
def earlyEnd : Frame → ReadError
  | list => .endInList
  | object => .endInObject

end Frame

/-- Moves behind the key of an object and its colon; in a sequence there is no key. -/
def skipKey (frame : Frame) (cs : List Char) : Except ReadError (List Char) :=
  match frame with
  | .list => .ok cs
  | .object =>
      match skipBlanks cs with
      | [] => .error .endInObject
      | '"' :: cs =>
          match skipString cs with
          | .error e => .error e
          | .ok cs => colon cs
      | _ => .error .keyNotString

/-- Where a reader stands that skips a value. -/
inductive SkipState where
  /-- Before a value. -/
  | value
  /-- Behind a value inside a frame. -/
  | behindValue
  /-- Behind the opening mark of a frame. -/
  | opened

/-- Moves behind a value inside the given frames, the innermost first; `fuel` bounds the number of
steps. -/
def skipFrom : Nat → SkipState → List Frame → List Char → Except ReadError (List Char)
  | 0, _, _, _ => .error .tooDeep
  | _ + 1, .behindValue, [], cs => .ok cs
  | _ + 1, .opened, [], cs => .ok cs
  | fuel + 1, .behindValue, frame :: frames, cs =>
      match skipBlanks cs with
      | [] => .error frame.earlyEnd
      | c :: cs =>
          if c = ',' then
            match skipKey frame cs with
            | .error e => .error e
            | .ok cs => skipFrom fuel .value (frame :: frames) cs
          else if c = frame.closing then skipFrom fuel .behindValue frames cs
          else .error frame.missingEnd
  | fuel + 1, .opened, frame :: frames, cs =>
      match skipBlanks cs with
      | [] => .error frame.earlyEnd
      | c :: cs =>
          if c = frame.closing then skipFrom fuel .behindValue frames cs
          else
            match skipKey frame (c :: cs) with
            | .error e => .error e
            | .ok cs => skipFrom fuel .value (frame :: frames) cs
  | fuel + 1, .value, frames, cs =>
      let behind (r : Except ReadError (List Char)) : Except ReadError (List Char) :=
        match r with
        | .error e => .error e
        | .ok cs => skipFrom fuel .behindValue frames cs
      match skipBlanks cs with
      | [] => .error .endInValue
      | 'n' :: cs => behind (readWord ['u', 'l', 'l'] cs)
      | 't' :: cs => behind (readWord ['r', 'u', 'e'] cs)
      | 'f' :: cs => behind (readWord ['a', 'l', 's', 'e'] cs)
      | '-' :: cs => behind (skipNumber cs)
      | '"' :: cs => behind (skipString cs)
      | '[' :: cs => skipFrom fuel .opened (.list :: frames) cs
      | '\x7b' :: cs => skipFrom fuel .opened (.object :: frames) cs
      | c :: cs =>
          if Decimal.isDigit c then behind (skipNumber (c :: cs)) else .error .expectedValue

/-- The text behind a value. -/
def skipValue (cs : List Char) : Except ReadError (List Char) :=
  skipFrom (2 * cs.length + 3) .value [] cs

end Json

end TokenHighlight
