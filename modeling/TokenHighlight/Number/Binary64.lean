/-!
# Binary numbers of 64 bits

A `Binary64` is a floating point number: a sign, a mantissa below `2 ^ 53` and a power of two, or an
infinity, or no number.  `ofRatio` rounds a quotient of natural numbers to the nearest one, a tie to
the even mantissa; multiplication and division round the exact result in the same way.
-/

namespace TokenHighlight

/-- A floating point number of 64 bits. -/
inductive Binary64 where
  /-- The number `mantissa * 2 ^ exponent`, negated if `negative`. -/
  | finite (negative : Bool) (mantissa : Nat) (exponent : Int)
  /-- An infinity. -/
  | infinite (negative : Bool)
  /-- No number. -/
  | nan
  deriving DecidableEq

namespace Binary64

/-- The least exponent. -/
def minExponent : Int := -1074

/-- The greatest exponent. -/
def maxExponent : Int := 971

/-- A power of two. -/
def twoPow (n : Nat) : Nat := Nat.pow 2 n

/-- A power of ten. -/
def tenPow (n : Nat) : Nat := Nat.pow 10 n

/-- Whether `num / den` is at least `2 ^ e`. -/
def reaches (num den : Nat) (e : Int) : Bool :=
  den * twoPow e.toNat ≤ num * twoPow (-e).toNat

/-- The greatest `e` such that `2 ^ e` is at most the positive quotient `num / den`. -/
def floorLog2 (num den : Nat) : Int :=
  let e : Int := num.log2 - den.log2
  if reaches num den e then e else e - 1

/-- The natural number nearest to `num / den`, a tie going to the even one. -/
def roundDiv (num den : Nat) : Nat :=
  let q := num / den
  let twice := 2 * (num % den)
  if twice < den then q
  else if den < twice then q + 1
  else q + q % 2

/-- The number nearest to `num / den`; `den` is positive. -/
def ofRatio (negative : Bool) (num den : Nat) : Binary64 :=
  if num = 0 then finite negative 0 minExponent
  else
    let e := max (floorLog2 num den - 52) minExponent
    let m := roundDiv (num * twoPow (-e).toNat) (den * twoPow e.toNat)
    let (m, e) := if m = twoPow 53 then (twoPow 52, e + 1) else (m, e)
    if maxExponent < e then infinite negative else finite negative m e

/-- The number nearest to a natural number. -/
def ofNat (n : Nat) : Binary64 := ofRatio false n 1

/-- The number nearest to `digits * 10 ^ exponent`. -/
def ofDecimal (negative : Bool) (digits : Nat) (exponent : Int) : Binary64 :=
  let magnitude : Int := digits.log2 + 3 * exponent
  if digits = 0 then finite negative 0 minExponent
  else if 0 ≤ exponent ∧ 1100 < magnitude then infinite negative
  else if exponent < 0 ∧ digits.log2 + 3 * exponent < -1200 then finite negative 0 minExponent
  else ofRatio negative (digits * tenPow exponent.toNat) (tenPow (-exponent).toNat)

/-- The number with the other sign. -/
def neg : Binary64 → Binary64
  | finite negative m e => finite (!negative) m e
  | infinite negative => infinite (!negative)
  | nan => nan

/-- Whether the number is zero of either sign. -/
def isZero : Binary64 → Bool
  | finite _ m _ => m == 0
  | _ => false

/-- Whether the number is an infinity. -/
def isInfinite : Binary64 → Bool
  | infinite _ => true
  | _ => false

/-- The rounded product of two finite numbers. -/
def mul : Binary64 → Binary64 → Binary64
  | finite s m e, finite t n f =>
      let g := e + f
      ofRatio (s != t) (m * n * twoPow g.toNat) (twoPow (-g).toNat)
  | _, _ => nan

/-- The rounded quotient of two finite numbers, the second not zero. -/
def div : Binary64 → Binary64 → Binary64
  | finite s m e, finite t n f =>
      let g := e - f
      if n = 0 then nan else ofRatio (s != t) (m * twoPow g.toNat) (n * twoPow (-g).toNat)
  | _, _ => nan

end Binary64

end TokenHighlight
