/-!
# Ranges of code points

A class of characters beyond ASCII is written as closed ranges of code points in increasing order.
-/

namespace StyledTemplate.Text

/-- Does some range hold the code point? -/
def inRanges (ranges : List (Nat × Nat)) (n : Nat) : Bool :=
  ranges.any fun range => range.1 ≤ n && n ≤ range.2

end StyledTemplate.Text
