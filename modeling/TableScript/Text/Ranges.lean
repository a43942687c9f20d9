/-!
# Sets of characters given by ranges

A character class of the Unicode standard is held as an ascending list of closed ranges of code
points. Membership stops at the first range that lies above the character.
-/

namespace TableScript.Text

/-- Closed ranges of code points, ascending and disjoint. -/
abbrev Ranges := List (Nat × Nat)

namespace Ranges

def find? : Ranges → Nat → Option (Nat × Nat)
  | [], _ => none
  | (lo, hi) :: rest, n =>
    if n < lo then none
    else if n ≤ hi then some (lo, hi)
    else find? rest n

def contains (r : Ranges) (n : Nat) : Bool := (r.find? n).isSome

end Ranges

end TableScript.Text
