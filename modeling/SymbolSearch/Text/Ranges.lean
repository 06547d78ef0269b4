/-!
# Character ranges

A class of characters is written as the list of its ranges of code points, in increasing order.
-/

namespace SymbolSearch

/-- Ranges of code points, each with its two ends, in increasing order. -/
abbrev Ranges := List (Nat × Nat)

namespace Ranges

/-- A code point lies in one of the ranges; the search stops at the first range that begins behind it. -/
def contains : Ranges → Nat → Bool
  | [], _ => false
  | (lo, hi) :: rest, n => if n < lo then false else if n ≤ hi then true else contains rest n

end Ranges

end SymbolSearch
