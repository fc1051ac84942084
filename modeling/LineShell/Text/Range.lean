import LineShell.Text.CodePoint

/-!
# Tables of code point ranges

Character properties of the Unicode standard are given as lists of closed ranges in increasing
order.
-/

namespace LineShell

/-- A property of code points, as the closed ranges of the numbers that have it. -/
abbrev RangeTable := List (Nat × Nat)

namespace RangeTable

/-- Whether the number of `c` lies in one of the ranges. -/
def holds (table : RangeTable) (c : CodePoint) : Bool :=
  table.any fun range => c.within range.1 range.2

theorem holds_iff {table : RangeTable} {c : CodePoint} :
    table.holds c = true ↔ ∃ range ∈ table, range.1 ≤ c.val ∧ c.val ≤ range.2 := by
  simp [holds, CodePoint.within_iff]

/-- Whether the ranges are non-empty, increasing and apart from each other. -/
def sorted : RangeTable → Bool
  | [] => true
  | [range] => range.1 ≤ range.2
  | range :: next :: rest =>
    range.1 ≤ range.2 && range.2 + 1 < next.1 && sorted (next :: rest)

end RangeTable

end LineShell
