/-!
# Sets of characters as ranges

A property of characters is a table of ranges of code points, sorted and apart from each other.
Membership is a binary search. The tables are those of version 17 of the Unicode character data.
-/
namespace DocSelect

/-- Ranges of code points, both ends included, in increasing order. -/
abbrev Ranges := Array (Nat × Nat)

namespace Ranges

/-- Searches the entries from `low` up to, not including, `high`. -/
def search (t : Ranges) (n : Nat) : (fuel low high : Nat) → Bool
  | 0, _, _ => false
  | fuel + 1, low, high =>
    if high ≤ low then false
    else
      let middle := (low + high) / 2
      match t[middle]? with
      | none => false
      | some (first, last) =>
        if n < first then search t n fuel low middle
        else if last < n then search t n fuel (middle + 1) high
        else true

/-- Whether a code point lies in one of the ranges. Each step halves the entries left. -/
def contains (t : Ranges) (n : Nat) : Bool := search t n (t.size.log2 + 2) 0 t.size

end Ranges

end DocSelect
