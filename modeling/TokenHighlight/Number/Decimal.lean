/-!
# Decimal integers

`Decimal.ofNat` and `Decimal.ofInt` write integers in decimal without leading zeros;
`Decimal.toNat?` and `Decimal.toInt?` read them, leading zeros and a sign allowed.
`Decimal.toCode?` reads an integer of 32 bits.
-/

namespace TokenHighlight

namespace Decimal

/-- The digit of a number below ten. -/
def digit (n : Nat) : Char :=
  Char.ofNat (48 + n)

/-- Whether a character is an ASCII digit. -/
def isDigit (c : Char) : Bool :=
  48 ≤ c.toNat && c.toNat ≤ 57

/-- The value of an ASCII digit. -/
def value (c : Char) : Nat :=
  c.toNat - 48

/-- The decimal digits of a number. -/
def ofNat (n : Nat) : List Char :=
  if n < 10 then [digit n] else ofNat (n / 10) ++ [digit (n % 10)]

/-- The decimal form of an integer, with a minus sign if it is negative. -/
def ofInt : Int → List Char
  | .ofNat n => ofNat n
  | .negSucc n => '-' :: ofNat (n + 1)

/-- The number with the given digits, appended to those of `acc`. -/
def accumulate (acc : Nat) (cs : List Char) : Nat :=
  cs.foldl (fun n c => 10 * n + value c) acc

/-- The number written by a nonempty list of digits. -/
def toNat? (cs : List Char) : Option Nat :=
  if !cs.isEmpty && cs.all isDigit then some (accumulate 0 cs) else none

/-- The integer written by an optional sign and digits. -/
def toInt? : List Char → Option Int
  | '+' :: cs => (toNat? cs).map fun n => (n : Int)
  | '-' :: cs => (toNat? cs).map fun n => -(n : Int)
  | cs => (toNat? cs).map fun n => (n : Int)

/-- Whether an integer fits into 32 bits with a sign. -/
def isCode (n : Int) : Bool :=
  -2147483648 ≤ n && n ≤ 2147483647

/-- The integer of 32 bits written by an optional sign and digits. -/
def toCode? (cs : List Char) : Option Int :=
  (toInt? cs).filter isCode

end Decimal

end TokenHighlight
