/-!
# Blank characters

`isBlank` is the Unicode property White_Space: 25 characters.  `trim` removes blank characters from
both ends of a text and `trimRight` from its end.
-/

namespace TokenHighlight

namespace Text

/-- Whether a character has the Unicode property White_Space. -/
def isBlank (c : Char) : Bool :=
  let n := c.toNat
  (0x09 ≤ n && n ≤ 0x0D) || n == 0x20 || n == 0x85 || n == 0xA0 || n == 0x1680 ||
    (0x2000 ≤ n && n ≤ 0x200A) || n == 0x2028 || n == 0x2029 || n == 0x202F || n == 0x205F ||
    n == 0x3000

/-- The text without the blank characters at its start. -/
def trimLeft (cs : List Char) : List Char :=
  cs.dropWhile isBlank

/-- The text without the blank characters at its end. -/
def trimRight (cs : List Char) : List Char :=
  (cs.reverse.dropWhile isBlank).reverse

/-- The text without the blank characters at either end. -/
def trim (cs : List Char) : List Char :=
  trimRight (trimLeft cs)

end Text

end TokenHighlight
