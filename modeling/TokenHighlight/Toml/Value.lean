import TokenHighlight.Number.Binary64
import TokenHighlight.Number.Decimal

/-!
# TOML values

`Toml.Value` is what a TOML document says, whatever way it is written in: tables under headers,
inline tables and tables made by dotted keys are all `table`.  Only arrays are kept apart: `array`
is written in brackets and `tables` comes from headers.
-/

namespace TokenHighlight

namespace Toml

/-- A calendar date. -/
structure Date where
  /-- The year. -/
  year : Nat
  /-- The month, from one. -/
  month : Nat
  /-- The day of the month, from one. -/
  day : Nat
  deriving DecidableEq

/-- A time of day. -/
structure Time where
  /-- The hour. -/
  hour : Nat
  /-- The minute. -/
  minute : Nat
  /-- The second, up to sixty. -/
  second : Nat
  /-- Billionths of a second. -/
  nano : Nat
  deriving DecidableEq

/-- The distance of a local time from universal time. -/
inductive Offset where
  /-- Universal time. -/
  | universal
  /-- A number of minutes. -/
  | minutes (n : Int)
  deriving DecidableEq

/-- A date, a time, or both, with an offset if there are both. -/
structure Datetime where
  /-- The date. -/
  date? : Option Date
  /-- The time. -/
  time? : Option Time
  /-- The offset. -/
  offset? : Option Offset
  deriving DecidableEq

/-- A value of a TOML document; the fields of a table are in document order. -/
inductive Value where
  /-- A string. -/
  | string (s : String)
  /-- An integer. -/
  | integer (n : Int)
  /-- A floating point number. -/
  | float (x : Binary64)
  /-- A truth value. -/
  | boolean (b : Bool)
  /-- A date or time. -/
  | datetime (d : Datetime)
  /-- An array in brackets. -/
  | array (items : List Value)
  /-- An array of tables under headers. -/
  | tables (items : List Value)
  /-- A table. -/
  | table (fields : List (String × Value))

/-- A number with leading zeros up to a width. -/
def padded (width n : Nat) : List Char :=
  let ds := Decimal.ofNat n
  List.replicate (width - ds.length) '0' ++ ds

namespace Datetime

/-- A date, as in `1979-05-27`. -/
def dateText (d : Date) : List Char :=
  padded 4 d.year ++ '-' :: padded 2 d.month ++ '-' :: padded 2 d.day

/-- A time, as in `07:32:00.5`. -/
def timeText (t : Time) : List Char :=
  padded 2 t.hour ++ ':' :: padded 2 t.minute ++ ':' :: padded 2 t.second ++
    if t.nano = 0 then []
    else '.' :: ((padded 9 t.nano).reverse.dropWhile (· == '0')).reverse

/-- An offset, as in `-07:00`.  An offset of no minutes is positive. -/
def offsetText : Offset → List Char
  | .universal => ['Z']
  | .minutes n =>
      (if n < 0 then '-' else '+') :: padded 2 (n.natAbs / 60) ++ ':' :: padded 2 (n.natAbs % 60)

/-- A date or time as TOML writes it. -/
def text (d : Datetime) : String :=
  let date := (d.date?.map dateText).getD []
  let time := (d.time?.map timeText).getD []
  let between := if d.date?.isSome && d.time?.isSome then ['T'] else []
  String.ofList (date ++ between ++ time ++ (d.offset?.map offsetText).getD [])

end Datetime

end Toml

end TokenHighlight
