/-
# White space around a text

A line of input is compared without the white space around it.  White space is here the
Unicode property `White_Space`: beside the ASCII blanks it has the no-break spaces, the spaces
of fixed width, and the separators of lines and paragraphs.
-/
namespace TreeWalk

/-- The characters with the property `White_Space`. -/
def isWhiteSpace (c : Char) : Bool :=
  let n := c.toNat
  (0x09 ≤ n && n ≤ 0x0D) || n == 0x20 || n == 0x85 || n == 0xA0 || n == 0x1680
    || (0x2000 ≤ n && n ≤ 0x200A) || n == 0x2028 || n == 0x2029 || n == 0x202F
    || n == 0x205F || n == 0x3000

/-- A text without the white space at its two ends. -/
def trimmed (text : List Char) : List Char :=
  (((text.dropWhile isWhiteSpace).reverse).dropWhile isWhiteSpace).reverse

end TreeWalk
