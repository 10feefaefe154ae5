/-!
# Sets of code points as closed ranges

A character class is a list of closed ranges `(first, last)` in rising order. The lookup stops
at the first range whose end is not below the code point, so plain ASCII text costs a step or two.
-/

namespace WhileFrontend.Text

/-- A set of code points: closed ranges in rising order. -/
abbrev Ranges := List (Nat × Nat)

namespace Ranges

/-- Membership; the first range that does not end below `n` decides. -/
def contains : Ranges → Nat → Bool
  | [], _ => false
  | (lo, hi) :: rest, n => if n ≤ hi then decide (lo ≤ n) else contains rest n

end Ranges

end WhileFrontend.Text
