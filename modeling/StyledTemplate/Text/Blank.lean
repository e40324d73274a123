/-!
# Blank characters

A character is blank if it has the Unicode property White_Space. Blank characters around a directive
and around its argument do not matter, and a paragraph of blank characters counts as empty where a
directive stands alone.
-/

namespace StyledTemplate.Text

/-- The characters with the property White_Space. -/
def isBlank (c : Char) : Bool :=
  let n := c.toNat
  (0x09 ≤ n && n ≤ 0x0D) || n == 0x20 || n == 0x85 || n == 0xA0 || n == 0x1680 ||
    (0x2000 ≤ n && n ≤ 0x200A) || n == 0x2028 || n == 0x2029 || n == 0x202F || n == 0x205F ||
    n == 0x3000

/-- The text without the blank characters at its start. -/
def trimStart (cs : List Char) : List Char := cs.dropWhile isBlank

/-- The text without the blank characters at its end. -/
def trimEnd (cs : List Char) : List Char := (cs.reverse.dropWhile isBlank).reverse

/-- The text without the blank characters at its two ends. -/
def trim (cs : List Char) : List Char := trimEnd (trimStart cs)

/-- Is the text made of blank characters only? -/
def allBlank (cs : List Char) : Bool := cs.all isBlank

end StyledTemplate.Text
