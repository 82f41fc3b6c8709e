/-!
# Ranges of code points

A property of characters is given by the closed intervals of code points that
have it, in increasing order.
-/

namespace PhraseGrammar.Unicode

/-- Closed intervals of code points. -/
abbrev Ranges := List (Nat × Nat)

namespace Ranges

/-- A character belongs to the ranges when one interval holds its code point. -/
def contains (ranges : Ranges) (c : Char) : Bool :=
  ranges.any fun range => range.1 ≤ c.toNat && c.toNat ≤ range.2

theorem contains_iff {ranges : Ranges} {c : Char} :
    ranges.contains c = true ↔
      ∃ range ∈ ranges, range.1 ≤ c.toNat ∧ c.toNat ≤ range.2 := by
  simp [contains]

end Ranges

end PhraseGrammar.Unicode
