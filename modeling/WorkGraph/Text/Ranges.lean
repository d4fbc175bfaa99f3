/-!
# Sets of characters as lists of ranges

A property of characters that no rule describes is a table: a list of ranges of code points, both ends included.
`inRanges` looks a code point up, and `inRanges_iff` says what it answers.
-/

namespace WorkGraph.Text

/-- Whether a code point lies in one of the ranges. -/
def inRanges (table : List (Nat × Nat)) (code : Nat) : Bool :=
  table.any fun range => decide (range.1 ≤ code) && decide (code ≤ range.2)

theorem inRanges_iff {table : List (Nat × Nat)} {code : Nat} :
    inRanges table code = true ↔ ∃ range ∈ table, range.1 ≤ code ∧ code ≤ range.2 := by
  simp [inRanges]

end WorkGraph.Text
