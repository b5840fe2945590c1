import DocSelect.Value.Store

/-!
# Ranges

A range takes the part of a slice or text between two positions, both included. A missing bound is
the first or the last position, and where the start lies behind the end the part runs backwards.
-/
namespace DocSelect

def between {α : Type} (start stop : Nat) (xs : List α) : List α :=
  if start ≤ stop then (xs.drop start).take (stop - start + 1)
  else ((xs.drop stop).take (start - stop + 1)).reverse

/-- The part of a list between two indices. The empty list has no other part than itself. -/
def range? {α : Type} (start stop : Option Int64) (xs : List α) : Except ValueError (List α) :=
  if xs.isEmpty then .ok []
  else do
    let first ← match start with
      | some i => Store.position? i xs.length
      | none => .ok 0
    let last ← match stop with
      | some i => Store.position? i xs.length
      | none => .ok (xs.length - 1)
    return between first last xs

/-- The range of a slice or of the characters of a text. -/
def Store.range? (s : Store) (r : Ref) (start stop : Option Int64) : Except ValueError Data :=
  match s.data r with
  | .slice items => return .slice (← DocSelect.range? start stop items)
  | .scalar (.string t) => return .string (String.ofList (← DocSelect.range? start stop t.toList))
  | _ => s.unexpected r .slice

end DocSelect
