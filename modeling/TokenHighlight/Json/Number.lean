import TokenHighlight.Json.Error

/-!
# JSON numbers

An integer that fits into 64 bits is read exactly.  Any other number becomes a floating point
number: its first digits, as many as fit into 64 bits, are multiplied or divided by a power of ten.
-/

namespace TokenHighlight

namespace Json

/-- A JSON number. -/
inductive Number where
  /-- An integer. -/
  | integer (n : Int)
  /-- A floating point number. -/
  | float (x : Binary64)
  deriving DecidableEq

/-- What kind of value a number is. -/
def Number.found : Number → Found
  | integer n => .integer n
  | float x => .float x

/-- The greatest number of 64 bits. -/
def maxWord : Nat := 18446744073709551615

/-- The number of leading digits. -/
def countDigits (cs : List Char) : Nat := (cs.takeWhile Decimal.isDigit).length

/-- The text after its leading digits. -/
def skipDigits (cs : List Char) : List Char := cs.dropWhile Decimal.isDigit

/-- Appends digits to a number as long as it fits into 64 bits.  Gives the number, how many digits
it took, and the text from the first digit on that it did not take. -/
def takeDigits (n : Nat) : List Char → Nat × Nat × List Char
  | [] => (n, 0, [])
  | c :: cs =>
      if Decimal.isDigit c && 10 * n + Decimal.value c ≤ maxWord then
        let (m, count, rest) := takeDigits (10 * n + Decimal.value c) cs
        (m, count + 1, rest)
      else (n, 0, c :: cs)

/-- Scales a number by a power of ten in steps of at most 308, each of which is rounded. -/
def scale : Nat → Binary64 → Int → Except ReadError Binary64
  | 0, x, _ => .ok x
  | fuel + 1, x, e =>
      if e.natAbs ≤ 308 then
        if 0 ≤ e then
          let y := x.mul (.ofNat (Binary64.tenPow e.toNat))
          if y.isInfinite then .error .numberOutOfRange else .ok y
        else .ok (x.div (.ofNat (Binary64.tenPow (-e).toNat)))
      else if x.isZero then .ok x
      else if 0 ≤ e then .error .numberOutOfRange
      else scale fuel (x.div (.ofNat (Binary64.tenPow 308))) (e + 308)

/-- The floating point number `digits * 10 ^ exponent`. -/
def ofParts (negative : Bool) (digits : Nat) (exponent : Int) : Except ReadError Number :=
  match scale 8 (.ofNat digits) exponent with
  | .error e => .error e
  | .ok x => .ok (.float (if negative then x.neg else x))

/-- The exponent of a number from after its letter. -/
def readExponent (negative : Bool) (digits : Nat) (exponent : Int) (cs : List Char) :
    Reading Number :=
  let (down, cs) :=
    match cs with
    | '+' :: cs => (false, cs)
    | '-' :: cs => (true, cs)
    | cs => (false, cs)
  match cs with
  | [] => .error .endInValue
  | c :: _ =>
      if !Decimal.isDigit c then .error .invalidNumber
      else
        let n := Decimal.accumulate 0 (cs.takeWhile Decimal.isDigit)
        let rest := skipDigits cs
        if 2147483647 < n then
          if digits != 0 && !down then .error .numberOutOfRange
          else .ok (.float (.finite negative 0 Binary64.minExponent), rest)
        else
          match ofParts negative digits (if down then exponent - n else exponent + n) with
          | .error e => .error e
          | .ok x => .ok (x, rest)

/-- The end of a floating point number after its digits. -/
def readScale (negative : Bool) (digits : Nat) (exponent : Int) (cs : List Char) :
    Reading Number :=
  match cs with
  | c :: cs' =>
      if c = 'e' ∨ c = 'E' then readExponent negative digits exponent cs'
      else (ofParts negative digits exponent).map fun x => (x, cs)
  | [] => (ofParts negative digits exponent).map fun x => (x, [])

/-- The fraction of a number from after its point. -/
def readFraction (negative : Bool) (digits : Nat) (exponent : Int) (cs : List Char) :
    Reading Number :=
  match cs with
  | [] => .error .endInValue
  | c :: _ =>
      if !Decimal.isDigit c then .error .invalidNumber
      else
        let (digits, count, rest) := takeDigits digits cs
        readScale negative digits (exponent - count) (skipDigits rest)

/-- The rest of a number after the digits before its point; `extra` of them were left out. -/
def readTail (negative : Bool) (digits extra : Nat) (cs : List Char) : Reading Number :=
  match cs with
  | '.' :: cs => readFraction negative digits extra cs
  | c :: _ =>
      if c = 'e' ∨ c = 'E' ∨ extra ≠ 0 then readScale negative digits extra cs
      else integer cs
  | [] => if extra ≠ 0 then readScale negative digits extra [] else integer []
where
  /-- The number, which has neither a point nor an exponent and fits into 64 bits. -/
  integer (rest : List Char) : Reading Number :=
    if !negative then .ok (.integer digits, rest)
    else if digits = 0 ∨ 9223372036854775808 < digits then
      .ok (.float (Binary64.ofNat digits).neg, rest)
    else .ok (.integer (-digits), rest)

/-- A number after its sign. -/
def readNumber (negative : Bool) : List Char → Reading Number
  | [] => .error .endInValue
  | '0' :: cs =>
      match cs with
      | c :: _ => if Decimal.isDigit c then .error .invalidNumber else readTail negative 0 0 cs
      | [] => readTail negative 0 0 []
  | c :: cs =>
      if !Decimal.isDigit c then .error .invalidNumber
      else
        let (digits, _, rest) := takeDigits 0 (c :: cs)
        readTail negative digits (countDigits rest) (skipDigits rest)

/-! ## Numbers that are of no interest -/

/-- The text after an exponent, from after its letter. -/
def skipExponent (cs : List Char) : Except ReadError (List Char) :=
  let cs :=
    match cs with
    | '+' :: cs => cs
    | '-' :: cs => cs
    | cs => cs
  if countDigits cs = 0 then .error .invalidNumber else .ok (skipDigits cs)

/-- The text after what follows the digits of a number. -/
def skipScale : List Char → Except ReadError (List Char)
  | c :: cs => if c = 'e' ∨ c = 'E' then skipExponent cs else .ok (c :: cs)
  | [] => .ok []

/-- The text after the fraction and the exponent of a number. -/
def skipTail : List Char → Except ReadError (List Char)
  | '.' :: cs =>
      if countDigits cs = 0 then .error .invalidNumber else skipScale (skipDigits cs)
  | cs => skipScale cs

/-- The text after a number, from after its sign. -/
def skipNumber : List Char → Except ReadError (List Char)
  | '0' :: cs => if countDigits cs = 0 then skipTail cs else .error .invalidNumber
  | cs => if countDigits cs = 0 then .error .invalidNumber else skipTail (skipDigits cs)

end Json

end TokenHighlight
