/-!
# Blank characters

The characters with the Unicode property `White_Space`. They separate the words of an image and are
stripped from both ends of a number. Core's `Char.isWhitespace` knows four of them only.
-/

namespace Accumulator

/-- The characters of the Unicode property `White_Space`, twenty-five in all. -/
def isBlank (c : Char) : Bool :=
  (0x09 ≤ c.val && c.val ≤ 0x0D) || c.val == 0x20 || c.val == 0x85 || c.val == 0xA0 ||
    c.val == 0x1680 || (0x2000 ≤ c.val && c.val ≤ 0x200A) || c.val == 0x2028 ||
    c.val == 0x2029 || c.val == 0x202F || c.val == 0x205F || c.val == 0x3000

/-- `cs` without the blanks at its two ends. -/
def trimBlank (cs : List Char) : List Char :=
  ((cs.dropWhile isBlank).reverse.dropWhile isBlank).reverse

end Accumulator
