/-!
Blank characters and trimming.

A character is blank if it has the Unicode property White_Space.  Trimming drops the blank
characters at both ends of a text.
-/

namespace FeatureFlags.Text

/-- The character has the property White_Space. -/
def isBlank (c : Char) : Bool :=
  let n := c.toNat
  (0x9 ≤ n && n ≤ 0xd) || n = 0x20 || n = 0x85 || n = 0xa0 || n = 0x1680
    || (0x2000 ≤ n && n ≤ 0x200a) || n = 0x2028 || n = 0x2029 || n = 0x202f || n = 0x205f
    || n = 0x3000

/-- The text without blank characters in front. -/
def trimStart (text : List Char) : List Char := text.dropWhile isBlank

/-- The text without blank characters at its ends. -/
def trim (text : List Char) : List Char := (trimStart (trimStart text).reverse).reverse

end FeatureFlags.Text
