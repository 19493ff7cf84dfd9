/-! # Blank characters

    The characters with the Unicode property `White_Space`, and trimming. -/

namespace OnePass.Text

/-- The code points of the blank characters above the ASCII range. -/
def wideBlanks : List Nat :=
  [0x85, 0xA0, 0x1680, 0x2000, 0x2001, 0x2002, 0x2003, 0x2004, 0x2005, 0x2006, 0x2007,
   0x2008, 0x2009, 0x200A, 0x2028, 0x2029, 0x202F, 0x205F, 0x3000]

/-- Does the character have the property `White_Space`? -/
def isBlank (c : Char) : Bool :=
  let n := c.toNat
  n == 0x20 || (0x09 ≤ n && n ≤ 0x0D) || (0x80 ≤ n && wideBlanks.contains n)

/-- `cs` without the blanks at its two ends. -/
def trim (cs : List Char) : List Char :=
  ((cs.dropWhile isBlank).reverse.dropWhile isBlank).reverse

end OnePass.Text
