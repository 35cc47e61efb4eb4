import TokenHighlight.Json.Error
import TokenHighlight.Text.Hex
import TokenHighlight.Text.Utf8

/-!
# JSON texts

The lexical level of JSON: blanks, the three words, strings and the marks between values.
-/

namespace TokenHighlight

namespace Json

/-- Whether a character may stand between the parts of a JSON text. -/
def isBlank (c : Char) : Bool := c == ' ' || c == '\n' || c == '\t' || c == '\r'

/-- The text after its leading blanks. -/
def skipBlanks (cs : List Char) : List Char := cs.dropWhile isBlank

/-- The text after an expected word. -/
def readWord : List Char → List Char → Except ReadError (List Char)
  | [], cs => .ok cs
  | _ :: _, [] => .error .endInValue
  | w :: ws, c :: cs => if w = c then readWord ws cs else .error .expectedWord

/-! ## Strings -/

/-- The character of an escape sequence of one letter. -/
def simpleEscape? (c : Char) : Option Char :=
  if c = '"' then some '"'
  else if c = '\\' then some '\\'
  else if c = '/' then some '/'
  else if c = 'b' then some '\x08'
  else if c = 'f' then some '\x0c'
  else if c = 'n' then some '\n'
  else if c = 'r' then some '\r'
  else if c = 't' then some '\t'
  else none

/-- Whether a number is the first half of a surrogate pair. -/
def isHighSurrogate (n : Nat) : Bool := 0xD800 ≤ n && n ≤ 0xDBFF

/-- Whether a number is the second half of a surrogate pair. -/
def isLowSurrogate (n : Nat) : Bool := 0xDC00 ≤ n && n ≤ 0xDFFF

/-- The character of a surrogate pair. -/
def ofSurrogates (high low : Nat) : Char :=
  Char.ofNat (0x10000 + 1024 * (high - 0xD800) + (low - 0xDC00))

/-- The error of an escape with too few characters for its digits: if there are bytes enough, some
of them are no digits. -/
def shortEscape (cs : List Char) : ReadError :=
  if 4 ≤ Text.byteLength cs then .invalidEscape else .endInString

/-- The error of a text that does not go on with the second half of a surrogate pair. -/
def brokenPair : List Char → ReadError
  | [] => .endInString
  | '\\' :: [] => .endInString
  | '\\' :: 'u' :: cs => shortEscape cs
  | _ => .endOfEscape

/-- Puts a character in front of what was read. -/
def push (c : Char) (r : Reading (List Char)) : Reading (List Char) :=
  match r with
  | .ok (cs, rest) => .ok (c :: cs, rest)
  | .error e => .error e

/-- A string from after its opening quotation mark. -/
def readString : List Char → Reading (List Char)
  | [] => .error .endInString
  | '"' :: cs => .ok ([], cs)
  | '\\' :: 'u' :: a :: b :: c :: d :: cs =>
      match Hex.accumulate? 0 [a, b, c, d] with
      | none => .error .invalidEscape
      | some n =>
          if isLowSurrogate n then .error .loneSurrogate
          else if isHighSurrogate n then
            match cs with
            | '\\' :: 'u' :: e :: f :: g :: h :: cs =>
                match Hex.accumulate? 0 [e, f, g, h] with
                | none => .error .invalidEscape
                | some m =>
                    if isLowSurrogate m then push (ofSurrogates n m) (readString cs)
                    else .error .loneSurrogate
            | cs => .error (brokenPair cs)
          else push (Char.ofNat n) (readString cs)
  | '\\' :: 'u' :: cs => .error (shortEscape cs)
  | ['\\'] => .error .endInString
  | '\\' :: c :: cs =>
      match simpleEscape? c with
      | none => .error .invalidEscape
      | some d => push d (readString cs)
  | c :: cs => if c.toNat < 32 then .error .controlCharacter else push c (readString cs)

/-- The text after a string that is of no interest, from after its opening quotation mark. -/
def skipString : List Char → Except ReadError (List Char)
  | [] => .error .endInString
  | '"' :: cs => .ok cs
  | '\\' :: 'u' :: a :: b :: c :: d :: cs =>
      match Hex.accumulate? 0 [a, b, c, d] with
      | none => .error .invalidEscape
      | some _ => skipString cs
  | '\\' :: 'u' :: cs => .error (shortEscape cs)
  | ['\\'] => .error .endInString
  | '\\' :: c :: cs =>
      match simpleEscape? c with
      | none => .error .invalidEscape
      | some _ => skipString cs
  | c :: cs => if c.toNat < 32 then .error .controlCharacter else skipString cs

/-! ## Marks -/

/-- Moves to the next item of a sequence; there is none at the closing bracket. -/
def nextItem (first : Bool) (cs : List Char) : Except ReadError (Option (List Char)) :=
  match skipBlanks cs with
  | [] => .error .endInList
  | ']' :: _ => .ok none
  | c :: cs =>
      if first then .ok (some (c :: cs))
      else if c = ',' then
        match skipBlanks cs with
        | [] => .error .endInValue
        | ']' :: _ => .error .trailingComma
        | cs => .ok (some cs)
      else .error .expectedListEnd

/-- The text after the end of a sequence. -/
def endList (cs : List Char) : Except ReadError (List Char) :=
  match skipBlanks cs with
  | [] => .error .endInList
  | ']' :: cs => .ok cs
  | ',' :: cs =>
      match skipBlanks cs with
      | ']' :: _ => .error .trailingComma
      | _ => .error .trailingText
  | _ => .error .trailingText

/-- Moves after the opening quotation mark of the next key of an object; there is none at the
closing brace. -/
def nextKey (first : Bool) (cs : List Char) : Except ReadError (Option (List Char)) :=
  match skipBlanks cs with
  | [] => .error .endInObject
  | '\x7d' :: _ => .ok none
  | c :: cs =>
      if first then if c = '"' then .ok (some cs) else .error .keyNotString
      else if c = ',' then
        match skipBlanks cs with
        | [] => .error .endInValue
        | '"' :: cs => .ok (some cs)
        | '\x7d' :: _ => .error .trailingComma
        | _ => .error .keyNotString
      else .error .expectedObjectEnd

/-- The text after the colon behind a key. -/
def colon (cs : List Char) : Except ReadError (List Char) :=
  match skipBlanks cs with
  | [] => .error .endInObject
  | ':' :: cs => .ok cs
  | _ => .error .expectedColon

/-- The text after the end of an object. -/
def endObject (cs : List Char) : Except ReadError (List Char) :=
  match skipBlanks cs with
  | [] => .error .endInObject
  | '\x7d' :: cs => .ok cs
  | ',' :: _ => .error .trailingComma
  | _ => .error .trailingText

end Json

end TokenHighlight
