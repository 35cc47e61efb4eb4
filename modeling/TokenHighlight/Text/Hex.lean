/-!
# Hexadecimal digits

`Hex.value?` reads a hexadecimal digit, `Hex.fixed` writes a number with a fixed count of digits.
-/

namespace TokenHighlight

namespace Hex

/-- The value of a hexadecimal digit of either case. -/
def value? (c : Char) : Option Nat :=
  let n := c.toNat
  if 48 ≤ n ∧ n ≤ 57 then some (n - 48)
  else if 65 ≤ n ∧ n ≤ 70 then some (n - 55)
  else if 97 ≤ n ∧ n ≤ 102 then some (n - 87)
  else none

/-- The number written by hexadecimal digits, appended to those of `acc`. -/
def accumulate? (acc : Nat) : List Char → Option Nat
  | [] => some acc
  | c :: cs =>
      match value? c with
      | none => none
      | some d => accumulate? (16 * acc + d) cs

/-- The lower case digit of a number below sixteen. -/
def lower (n : Nat) : Char :=
  if n < 10 then Char.ofNat (48 + n) else Char.ofNat (87 + n)

/-- The upper case digit of a number below sixteen. -/
def upper (n : Nat) : Char :=
  if n < 10 then Char.ofNat (48 + n) else Char.ofNat (55 + n)

/-- The last `width` hexadecimal digits of a number. -/
def fixed (digit : Nat → Char) : Nat → Nat → List Char
  | 0, _ => []
  | width + 1, n => fixed digit width (n / 16) ++ [digit (n % 16)]

theorem fixed_four (digit : Nat → Char) (n : Nat) : fixed digit 4 n =
    [digit (n / 16 / 16 / 16 % 16), digit (n / 16 / 16 % 16), digit (n / 16 % 16),
      digit (n % 16)] := rfl

/-- The hexadecimal digits of a number, in lower case, without leading zeros. -/
def minimal (n : Nat) : List Char :=
  if n < 16 then [lower n] else minimal (n / 16) ++ [lower (n % 16)]

end Hex

end TokenHighlight
