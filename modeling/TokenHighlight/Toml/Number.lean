import TokenHighlight.Text.Hex
import TokenHighlight.Toml.Value

/-!
# TOML numbers and times

Integers of 64 bits in four bases, floating point numbers, dates and times.  Digits may be separated
by single underscores.
-/

namespace TokenHighlight

namespace Toml

/-! ## Digits -/

/-- The digits accepted by `ok?` after a first one, single underscores between them allowed. -/
def moreDigits (isDigit : Char → Bool) : List Char → Option (List Char × List Char)
  | [] => some ([], [])
  | '_' :: c :: cs =>
      if isDigit c then (moreDigits isDigit cs).map fun (ds, rest) => (c :: ds, rest) else none
  | c :: cs =>
      if isDigit c then (moreDigits isDigit cs).map fun (ds, rest) => (c :: ds, rest)
      else if c = '_' then none
      else some ([], c :: cs)

/-- One or more digits, single underscores between them allowed. -/
def someDigits (isDigit : Char → Bool) : List Char → Option (List Char × List Char)
  | [] => none
  | c :: cs =>
      if isDigit c then (moreDigits isDigit cs).map fun (ds, rest) => (c :: ds, rest) else none

/-- The digits of a decimal integer, which has no leading zeros. -/
def integerDigits : List Char → Option (List Char × List Char)
  | '0' :: cs => some (['0'], cs)
  | cs => someDigits Decimal.isDigit cs

/-- The sign at the start of a number: whether it is negative, and the rest. -/
def readSign : List Char → Bool × List Char
  | '-' :: cs => (true, cs)
  | '+' :: cs => (false, cs)
  | cs => (false, cs)

/-! ## Integers and floating point numbers -/

/-- An integer, if it fits into 64 bits with a sign. -/
def integer? (n : Int) : Option Value :=
  if -9223372036854775808 ≤ n ∧ n ≤ 9223372036854775807 then some (.integer n) else none

/-- A floating point number; an overflow is an infinity only for negative numbers. -/
def float? (negative : Bool) (digits : Nat) (exponent : Int) : Option Value :=
  match Binary64.ofDecimal negative digits exponent with
  | .infinite false => none
  | x => some (.float x)

/-- The number written by digits of a base. -/
def inBase (base : Nat) (ds : List Char) : Nat :=
  ds.foldl (fun n c => base * n + (Hex.value? c).getD 0) 0

/-- Whether a character is a digit of a base up to sixteen. -/
def isDigitOf (base : Nat) (c : Char) : Bool :=
  match Hex.value? c with
  | some d => d < base
  | none => false

/-- An integer in another base than ten, from after its mark. -/
def readRadix (base : Nat) (cs : List Char) : Option (Value × List Char) :=
  match someDigits (isDigitOf base) cs with
  | none => none
  | some (ds, rest) => (integer? (inBase base ds)).map fun x => (x, rest)

/-- An exponent from after its letter. -/
def readExponent (cs : List Char) : Option (Int × List Char) :=
  let (negative, cs) := readSign cs
  (someDigits Decimal.isDigit cs).map fun (ds, rest) =>
    let n : Int := inBase 10 ds
    (if negative then -n else n, rest)

/-- The fraction and the exponent after the integer digits of a number. -/
def readTail (negative : Bool) (ds : List Char) : List Char → Option (Value × List Char)
  | '.' :: cs =>
      match someDigits Decimal.isDigit cs with
      | none => none
      | some (fs, cs) =>
          let digits := inBase 10 (ds ++ fs)
          match cs with
          | c :: cs' =>
              if c = 'e' ∨ c = 'E' then
                match readExponent cs' with
                | none => none
                | some (e, rest) => (float? negative digits (e - fs.length)).map fun x => (x, rest)
              else (float? negative digits (-fs.length)).map fun x => (x, cs)
          | [] => (float? negative digits (-fs.length)).map fun x => (x, [])
  | c :: cs =>
      if c = 'e' ∨ c = 'E' then
        match readExponent cs with
        | none => none
        | some (e, rest) => (float? negative (inBase 10 ds) e).map fun x => (x, rest)
      else
        let n : Int := inBase 10 ds
        (integer? (if negative then -n else n)).map fun x => (x, c :: cs)
  | [] =>
      let n : Int := inBase 10 ds
      (integer? (if negative then -n else n)).map fun x => (x, [])

/-- A number after its sign. -/
def readUnsigned (negative : Bool) : List Char → Option (Value × List Char)
  | 'i' :: 'n' :: 'f' :: cs => some (.float (.infinite negative), cs)
  | 'n' :: 'a' :: 'n' :: cs => some (.float .nan, cs)
  | cs =>
      match integerDigits cs with
      | none => none
      | some (ds, rest) => readTail negative ds rest

/-! ## Dates and times -/

/-- A number of exactly two digits. -/
def twoDigits? : List Char → Option (Nat × List Char)
  | a :: b :: cs =>
      if Decimal.isDigit a && Decimal.isDigit b then
        some (10 * Decimal.value a + Decimal.value b, cs)
      else none
  | _ => none

/-- A number of exactly two digits between two bounds. -/
def field? (low high : Nat) (cs : List Char) : Option (Nat × List Char) :=
  (twoDigits? cs).filter fun (n, _) => low ≤ n && n ≤ high

/-- The text after an expected character. -/
def mark? (c : Char) : List Char → Option (List Char)
  | d :: cs => if c = d then some cs else none
  | [] => none

/-- The number of days of a month. -/
def daysIn (year month : Nat) : Nat :=
  if month = 2 then
    if year % 4 = 0 ∧ (year % 100 ≠ 0 ∨ year % 400 = 0) then 29 else 28
  else if month = 4 ∨ month = 6 ∨ month = 9 ∨ month = 11 then 30
  else 31

/-- A date from after the digits of its year. -/
def readDate (year : Nat) (cs : List Char) : Option (Date × List Char) := do
  let cs ← mark? '-' cs
  let (month, cs) ← field? 1 12 cs
  let cs ← mark? '-' cs
  let (day, cs) ← field? 1 (daysIn year month) cs
  return (⟨year, month, day⟩, cs)

/-- The billionths of a second written by the digits of a fraction. -/
def nanoseconds (ds : List Char) : Nat :=
  inBase 10 ((ds ++ List.replicate 9 '0').take 9)

/-- A time of day. -/
def readTime (cs : List Char) : Option (Time × List Char) := do
  let (hour, cs) ← field? 0 23 cs
  let cs ← mark? ':' cs
  let (minute, cs) ← field? 0 59 cs
  let cs ← mark? ':' cs
  let (second, cs) ← field? 0 60 cs
  match cs with
  | '.' :: d :: rest =>
      if Decimal.isDigit d then
        let ds := d :: rest.takeWhile Decimal.isDigit
        return (⟨hour, minute, second, nanoseconds ds⟩, rest.dropWhile Decimal.isDigit)
      else return (⟨hour, minute, second, 0⟩, cs)
  | _ => return (⟨hour, minute, second, 0⟩, cs)

/-- An offset from after its sign. -/
def readOffset (sign : Int) (cs : List Char) : Option (Offset × List Char) := do
  let (hours, cs) ← field? 0 23 cs
  let cs ← mark? ':' cs
  let (minutes, cs) ← field? 0 59 cs
  return (.minutes (sign * (60 * hours + minutes)), cs)

/-- The offset after a time, if there is one. -/
def readOffset? : List Char → Option (Option Offset × List Char)
  | 'Z' :: cs => some (some .universal, cs)
  | 'z' :: cs => some (some .universal, cs)
  | '+' :: cs => (readOffset 1 cs).map fun (o, rest) => (some o, rest)
  | '-' :: cs => (readOffset (-1) cs).map fun (o, rest) => (some o, rest)
  | cs => some (none, cs)

/-- Whether a text starts with two digits and a colon. -/
def startsTime (cs : List Char) : Bool :=
  match field? 0 23 cs with
  | some (_, ':' :: _) => true
  | _ => false

/-- A date with the time and the offset after it, from after the digits of its year. -/
def readDatetime (year : Nat) (cs : List Char) : Option (Value × List Char) := do
  let (date, cs) ← readDate year cs
  match cs with
  | c :: rest =>
      if (c = 'T' ∨ c = 't' ∨ c = ' ') ∧ startsTime rest then
        let (time, rest) ← readTime rest
        let (offset?, rest) ← readOffset? rest
        return (.datetime ⟨some date, some time, offset?⟩, rest)
      else return (.datetime ⟨some date, none, none⟩, cs)
  | [] => return (.datetime ⟨some date, none, none⟩, [])

/-- Whether the first characters of a text are digits and the next is a mark. -/
def digitsThen (count : Nat) (mark : Char) (cs : List Char) : Bool :=
  (cs.take count).length == count && (cs.take count).all Decimal.isDigit &&
    (cs.drop count).head? == some mark

/-- A number, a date or a time. -/
def readNumber (cs : List Char) : Option (Value × List Char) :=
  if digitsThen 4 '-' cs then readDatetime (inBase 10 (cs.take 4)) (cs.drop 4)
  else if digitsThen 2 ':' cs then
    (readTime cs).map fun (time, rest) => (.datetime ⟨none, some time, none⟩, rest)
  else
    match cs with
    | '0' :: 'x' :: rest => readRadix 16 rest
    | '0' :: 'o' :: rest => readRadix 8 rest
    | '0' :: 'b' :: rest => readRadix 2 rest
    | _ =>
        let (negative, rest) := readSign cs
        readUnsigned negative rest

end Toml

end TokenHighlight
