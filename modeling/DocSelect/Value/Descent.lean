import DocSelect.Expr.Basic
import DocSelect.Value.Tree

/-!
# Descents

A descent lists the parts of a value, at every depth, that stand under a key or at an index, or that
are scalars; each part comes before its own parts.
-/
namespace DocSelect.Tree

mutual

def found (target : DescentTarget) : Tree → List Ref
  | scalar .. => []
  | slice _ _ items => foundItems target 0 items
  | map _ _ entries => foundEntries target entries

/-- Among the elements of a slice, the first of which is at position `i`, and their parts. -/
def foundItems (target : DescentTarget) (i : Nat) : List Tree → List Ref
  | [] => []
  | t :: ts =>
    let here := match target with
      | .index n => decide (n.toInt = i)
      | .scalars => t.isScalar
      | .key _ => false
    (if here then [t.ref] else []) ++ found target t ++ foundItems target (i + 1) ts

/-- Among the values of a map and their parts. -/
def foundEntries (target : DescentTarget) : List (String × Tree) → List Ref
  | [] => []
  | (k, t) :: es =>
    let here := match target with
      | .key name => decide (k = name)
      | .scalars => t.isScalar
      | .index _ => false
    (if here then [t.ref] else []) ++ found target t ++ foundEntries target es

end

end DocSelect.Tree
