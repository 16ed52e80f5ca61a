/-!
# Sets of characters

A property of Unicode is a list of closed intervals of code points.
-/

namespace MemShell

/-- A set of characters, as closed intervals of code points. -/
abbrev CharRanges := List (Nat × Nat)

/-- Membership in one of the intervals. -/
def CharRanges.has (ranges : CharRanges) (c : Char) : Bool :=
  ranges.any fun (low, high) => low ≤ c.toNat && c.toNat ≤ high

end MemShell
