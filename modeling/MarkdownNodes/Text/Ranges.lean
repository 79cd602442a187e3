/-! Sets of characters given by ranges of code points, the form in which character properties are
tabulated. Every table of this library lists closed ranges in ascending order. -/

namespace MarkdownNodes.Text

/-- A set of code points as closed ranges, first and last included. -/
abbrev Ranges := List (Nat × Nat)

/-- The character lies in one of the ranges. -/
def Ranges.covers (ranges : Ranges) (c : Char) : Bool :=
  ranges.any fun range => range.1 ≤ c.toNat && c.toNat ≤ range.2

end MarkdownNodes.Text
