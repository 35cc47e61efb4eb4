import TokenHighlight.Number.Binary64
import TokenHighlight.Number.Decimal

/-!
# Shortest decimals

`shortest` finds the decimal with the fewest digits that is read back as a given binary number, and
the nearest of those.  `positional` writes it without an exponent, `compact` with an exponent if the
number is large or small.  Both keep a decimal point.
-/

namespace TokenHighlight

namespace Binary64

/-- A nonzero decimal number `digits * 10 ^ exponent`. -/
structure Decimal10 where
  /-- The digits, as a number. -/
  digits : Nat
  /-- The power of ten. -/
  exponent : Int

/-- Which of two equally near decimals is taken. -/
inductive TieRule where
  /-- The one with the even last digit. -/
  | even
  /-- The one farther from zero. -/
  | up
  deriving DecidableEq

/-- Whether of two equally near decimals the one nearer to zero is taken, given its digits. -/
def TieRule.takesLesser : TieRule → Nat → Bool
  | even, d => d % 2 == 0
  | up, _ => false

/-- The least `p` from `start` down such that the quotient is less than `10 ^ p`. -/
def decimalPoint (num den : Nat) : Nat → Int → Int
  | 0, p => p
  | fuel + 1, p =>
      if num * tenPow (1 - p).toNat < den * tenPow (p - 1).toNat then
        decimalPoint num den fuel (p - 1)
      else p

/-- The decimal of at most `n` digits nearest to `num / den` among those between the bounds. -/
def candidate? (tie : TieRule) (low num high den : Nat) (even : Bool) (p : Int) (n : Nat) :
    Option Decimal10 :=
  let k := p - n
  let up := tenPow (-k).toNat
  let grid := den * tenPow k.toNat
  let d := num * up / grid
  let inside (d : Nat) : Bool :=
    if even then low * up ≤ d * grid && d * grid ≤ high * up
    else low * up < d * grid && d * grid < high * up
  let below := num * up - d * grid
  let above := (d + 1) * grid - num * up
  let isLesser := below < above || (below == above && tie.takesLesser d)
  if inside d && (isLesser || !inside (d + 1)) && d != 0 then some ⟨d, k⟩
  else if inside (d + 1) then some ⟨d + 1, k⟩
  else none

/-- The decimal without zeros at the end of its digits. -/
def dropZeros : Nat → Decimal10 → Decimal10
  | 0, x => x
  | fuel + 1, x =>
      if x.digits % 10 = 0 then dropZeros fuel ⟨x.digits / 10, x.exponent + 1⟩ else x

/-- The shortest decimal that is read back as `m * 2 ^ e`, for a positive mantissa. -/
def shortest (tie : TieRule) (m : Nat) (e : Int) : Decimal10 :=
  let scale := twoPow e.toNat
  let den := 4 * twoPow (-e).toNat
  let num := 4 * m * scale
  let low := (if m = twoPow 52 ∧ minExponent < e then 4 * m - 1 else 4 * m - 2) * scale
  let high := (4 * m + 2) * scale
  let p := decimalPoint num den 640 310
  let found :=
    (List.range 17).findSome? fun n => candidate? tie low num high den (m % 2 == 0) p (n + 1)
  dropZeros 20 (found.getD ⟨m, 0⟩)

/-- The sign of a number. -/
def sign (negative : Bool) : List Char :=
  if negative then ['-'] else []

/-- A decimal without an exponent, with at least one digit on both sides of the point. -/
def positionalDigits (x : Decimal10) : List Char :=
  let ds := Decimal.ofNat x.digits
  let point : Int := ds.length + x.exponent
  if 0 ≤ x.exponent then ds ++ List.replicate x.exponent.toNat '0' ++ ['.', '0']
  else if 0 < point then ds.take point.toNat ++ '.' :: ds.drop point.toNat
  else '0' :: '.' :: List.replicate (-point).toNat '0' ++ ds

/-- An exponent with its sign. -/
def power (n : Int) : List Char :=
  if 0 ≤ n then '+' :: Decimal.ofInt n else Decimal.ofInt n

/-- A decimal with one digit before the point and an exponent. -/
def scientificDigits (x : Decimal10) : List Char :=
  let ds := Decimal.ofNat x.digits
  let power := power (ds.length + x.exponent - 1)
  match ds with
  | [] => []
  | [d] => d :: 'e' :: power
  | d :: rest => d :: '.' :: rest ++ 'e' :: power

/-- The number without an exponent; of two equally near decimals, the one farther from zero. -/
def positional : Binary64 → String
  | nan => "NaN"
  | infinite negative => String.ofList (sign negative ++ "inf".toList)
  | finite negative m e =>
      if m = 0 then String.ofList (sign negative ++ "0.0".toList)
      else String.ofList (sign negative ++ positionalDigits (shortest .up m e))

/-- The number, with an exponent unless its point lies at most five places before or sixteen places
after its first digit; of two equally near decimals, the even one. -/
def compact : Binary64 → String
  | nan => "NaN"
  | infinite negative => String.ofList (sign negative ++ "inf".toList)
  | finite negative m e =>
      if m = 0 then String.ofList (sign negative ++ "0.0".toList)
      else
        let x := shortest .even m e
        let point : Int := (Decimal.ofNat x.digits).length + x.exponent
        if -5 < point ∧ point ≤ 16 then String.ofList (sign negative ++ positionalDigits x)
        else String.ofList (sign negative ++ scientificDigits x)

end Binary64

end TokenHighlight
