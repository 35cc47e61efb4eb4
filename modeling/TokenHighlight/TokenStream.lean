import TokenHighlight.Highlight
import TokenHighlight.Json.Skip
import TokenHighlight.Json.Value
import TokenHighlight.Vocabulary.Resolve

/-!
# Token streams

A token stream is a JSON sequence of tokens.  A token is an object with the fields `kind` (a code or
a name) and `span` (two offsets), or a sequence of the two.  `TokenStream.read` reads a stream;
`StreamToken.token` finds the elements that its kinds stand for, and kinds that stand for none are
unknown.
-/

namespace TokenHighlight

/-- A kind as a token stream gives it. -/
inductive KindRef where
  /-- A code. -/
  | code (n : Int)
  /-- A name. -/
  | name (s : String)
  deriving DecidableEq

/-- A token as a token stream gives it. -/
structure StreamToken where
  /-- The kind. -/
  kind : KindRef
  /-- The bytes of the token. -/
  span : Span
  deriving DecidableEq

namespace KindRef

/-- The element that a kind stands for; codes outside 32 bits and unknown names stand for none. -/
def element (v : Vocabulary) : KindRef → Element
  | code n => if Decimal.isCode n then .token n else .unknown
  | name s =>
      match v.resolve s with
      | .ok e => e
      | .error _ => .unknown

/-- Whether a kind stands for an element. -/
def isKnown (v : Vocabulary) : KindRef → Bool
  | code n => Decimal.isCode n
  | name s => (v.resolve s).isOk

end KindRef

/-- The token with the element of its kind. -/
def StreamToken.token (v : Vocabulary) (t : StreamToken) : Token := ⟨t.kind.element v, t.span⟩

namespace TokenStream

open Json

/-- The kind that a value gives. -/
def kindOfData : Data → Except ReadError KindRef
  | .int n =>
      if -9223372036854775808 ≤ n ∧ n ≤ 9223372036854775807 then .ok (.code n)
      else .error .noVariant
  | .text s => .ok (.name s)
  | _ => .error .noVariant

/-! ## Values of a fixed type -/

/-- The error of a value that is not of the expected type. -/
def mismatch (expected : String) (cs : List Char) : ReadError :=
  let behind (found : Found) (r : Except ReadError (List Char)) : ReadError :=
    match r with
    | .error e => e
    | .ok _ => .wrongType found expected
  let number (r : Reading Number) : ReadError :=
    match r with
    | .error e => e
    | .ok (n, _) => .wrongType n.found expected
  match cs with
  | [] => .expectedValue
  | 'n' :: cs => behind .null (readWord ['u', 'l', 'l'] cs)
  | 't' :: cs => behind (.bool true) (readWord ['r', 'u', 'e'] cs)
  | 'f' :: cs => behind (.bool false) (readWord ['a', 'l', 's', 'e'] cs)
  | '-' :: cs => number (readNumber true cs)
  | '"' :: cs =>
      match readString cs with
      | .error e => e
      | .ok (s, _) => .wrongType (.text (String.ofList s)) expected
  | '[' :: _ => .wrongType .sequence expected
  | '\x7b' :: _ => .wrongType .map expected
  | c :: cs =>
      if Decimal.isDigit c then number (readNumber false (c :: cs)) else .expectedValue

/-- The offset that a number gives. -/
def offsetOfNumber (r : Reading Number) : Reading Nat :=
  match r with
  | .error e => .error e
  | .ok (.integer n, cs) =>
      if 0 ≤ n then .ok (n.toNat, cs) else .error (.wrongInteger n "usize")
  | .ok (.float x, _) => .error (.wrongType (.float x) "usize")

/-- An offset of 64 bits. -/
def readOffset (cs : List Char) : Reading Nat :=
  match skipBlanks cs with
  | [] => .error .endInValue
  | '-' :: cs => offsetOfNumber (readNumber true cs)
  | c :: cs =>
      if Decimal.isDigit c then offsetOfNumber (readNumber false (c :: cs))
      else .error (mismatch "usize" (c :: cs))

/-- The next item of a sequence that has to have one. -/
def readItem {α : Type} (first : Bool) (missing : ReadError) (read : List Char → Reading α)
    (cs : List Char) : Reading α :=
  match nextItem first cs with
  | .error e => .error e
  | .ok none => .error missing
  | .ok (some cs) => read cs

/-- A sequence of two items, from after its opening bracket. -/
def readTwo {α β : Type} (expected : String) (readFirst : List Char → Reading α)
    (readSecond : List Char → Reading β) (cs : List Char) : Reading (α × β) :=
  match readItem true (.wrongLength 0 expected) readFirst cs with
  | .error e => .error e
  | .ok (a, cs) =>
      match readItem false (.wrongLength 1 expected) readSecond cs with
      | .error e => .error e
      | .ok (b, cs) =>
          match endList cs with
          | .error e => .error e
          | .ok cs => .ok ((a, b), cs)

/-- The span of a token: two offsets. -/
def readSpan (cs : List Char) : Reading Span :=
  match skipBlanks cs with
  | [] => .error .endInValue
  | '[' :: cs =>
      match readTwo "a tuple of size 2" readOffset readOffset cs with
      | .error e => .error e
      | .ok ((start, stop), cs) => .ok (⟨start, stop⟩, cs)
  | cs => .error (mismatch "a tuple of size 2" cs)

/-- The kind of a token. -/
def readKind (cs : List Char) : Reading KindRef :=
  match readValue (fuelFor cs) 126 cs with
  | .error e => .error e
  | .ok (x, cs) =>
      match kindOfData x with
      | .error e => .error e
      | .ok kind => .ok (kind, cs)

/-! ## Tokens -/

/-- The fields of a token that have been read. -/
structure Gathered where
  /-- The kind. -/
  kind? : Option KindRef
  /-- The span. -/
  span? : Option Span

/-- The token with all its fields. -/
def Gathered.complete : Gathered → Except ReadError StreamToken
  | ⟨none, _⟩ => .error (.missingField "kind")
  | ⟨some _, none⟩ => .error (.missingField "span")
  | ⟨some kind, some span⟩ => .ok ⟨kind, span⟩

/-- The value of a field, from after its key. -/
def readField (key : List Char) (p : Gathered) (cs : List Char) : Reading Gathered :=
  if key = "kind".toList then
    if p.kind?.isSome then .error (.duplicateField "kind")
    else
      match colon cs with
      | .error e => .error e
      | .ok cs =>
          match readKind cs with
          | .error e => .error e
          | .ok (kind, cs) => .ok ({ p with kind? := some kind }, cs)
  else if key = "span".toList then
    if p.span?.isSome then .error (.duplicateField "span")
    else
      match colon cs with
      | .error e => .error e
      | .ok cs =>
          match readSpan cs with
          | .error e => .error e
          | .ok (span, cs) => .ok ({ p with span? := some span }, cs)
  else
    match colon cs with
    | .error e => .error e
    | .ok cs =>
        match skipValue cs with
        | .error e => .error e
        | .ok cs => .ok (p, cs)

/-- The fields of a token up to its closing brace, at most `fuel` of them. -/
def readFields : Nat → Bool → Gathered → List Char → Reading Gathered
  | 0, _, _, _ => .error .tooDeep
  | fuel + 1, first, p, cs =>
      match nextKey first cs with
      | .error e => .error e
      | .ok none => .ok (p, cs)
      | .ok (some cs) =>
          match readString cs with
          | .error e => .error e
          | .ok (key, cs) =>
              match readField key p cs with
              | .error e => .error e
              | .ok (p, cs) => readFields fuel false p cs

/-- A token. -/
def readToken (cs : List Char) : Reading StreamToken :=
  match skipBlanks cs with
  | [] => .error .endInValue
  | '[' :: cs =>
      match readTwo "struct RawToken with 2 elements" readKind readSpan cs with
      | .error e => .error e
      | .ok ((kind, span), cs) => .ok (⟨kind, span⟩, cs)
  | '\x7b' :: cs =>
      match readFields (cs.length + 1) true ⟨none, none⟩ cs with
      | .error e => .error e
      | .ok (p, cs) =>
          match p.complete with
          | .error e => .error e
          | .ok token =>
              match endObject cs with
              | .error e => .error e
              | .ok cs => .ok (token, cs)
  | cs => .error (mismatch "struct RawToken" cs)

/-- The tokens up to the closing bracket, at most `fuel` of them. -/
def readTokens : Nat → Bool → List Char → Reading (List StreamToken)
  | 0, _, _ => .error .tooDeep
  | fuel + 1, first, cs =>
      match nextItem first cs with
      | .error e => .error e
      | .ok none => .ok ([], cs)
      | .ok (some cs) =>
          match readToken cs with
          | .error e => .error e
          | .ok (token, cs) =>
              match readTokens fuel false cs with
              | .error e => .error e
              | .ok (tokens, cs) => .ok (token :: tokens, cs)

/-- A token stream with nothing but blanks around it. -/
def readAll (cs : List Char) : Except ReadError (List StreamToken) :=
  match skipBlanks cs with
  | [] => .error .endInValue
  | '[' :: cs =>
      match readTokens (cs.length + 1) true cs with
      | .error e => .error e
      | .ok (tokens, cs) =>
          match endList cs with
          | .error e => .error e
          | .ok cs => if (skipBlanks cs).isEmpty then .ok tokens else .error .trailingText
  | cs => .error (mismatch "a sequence" cs)

/-- Reads a token stream. -/
def read (text : String) : Except ReadError (List StreamToken) := readAll text.toList

end TokenStream

end TokenHighlight
