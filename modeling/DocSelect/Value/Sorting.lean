import DocSelect.Value.Order

/-!
# Sorting by keys

Elements are sorted by keys computed beforehand. Each one moves left past those that it must precede
and no further, so elements with equal keys keep their order, in both directions.

This is what a stable sort gives for keys that are in an order. For others none is promised, and a
library's sort may then stop the program.
-/
namespace DocSelect

/-- Puts an element into a list sorted from the last to the first, behind those that it precedes. -/
def insertSorted {α : Type} (precedes : α → α → Bool) (x : α) : List α → List α
  | [] => [x]
  | y :: ys => if precedes x y then y :: insertSorted precedes x ys else x :: y :: ys

/-- The elements in order, those that precede no other one first come first. -/
def sortStable {α : Type} (precedes : α → α → Bool) (xs : List α) : List α :=
  (xs.foldl (fun sorted x => insertSorted precedes x sorted) []).reverse

/-- Whether a key comes strictly before another one in this direction. -/
def Tree.precedes (descending : Bool) (a b : Tree) : Bool :=
  if descending then b.compare a == .lt else a.compare b == .lt

/-- The keys of a sort, in the store in which they are compared. -/
structure Sorting where
  store : Store
  keys : List Ref

end DocSelect
