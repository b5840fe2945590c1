import DocSelect.Number.Layout
import DocSelect.Value.Tree

/-!
# How diagnostics show a value

Texts are quoted, containers list their parts in brackets, and a branch or spread says so in front.
-/
namespace DocSelect

def Scalar.shown : Scalar → String
  | null => "null"
  | bool b => if b then "true" else "false"
  | int i => toString i.toInt
  | float x => Layout.diagnostic.text x
  | string s => Quoted.quote s

namespace Tree

/-- The marks that are shown, in front of the value. -/
def shownMarks (m : Marks) : String :=
  (if m.branch then "branch " else "") ++ (if m.spread then "spread " else "")

mutual

def shown : Tree → String
  | scalar _ m a => shownMarks m ++ a.shown
  | slice _ m items => shownMarks m ++ "[" ++ String.intercalate ", " (shownItems items) ++ "]"
  | map _ m entries =>
    shownMarks m ++ "\x7b" ++ String.intercalate ", " (shownEntries entries) ++ "\x7d"

def shownItems : List Tree → List String
  | [] => []
  | t :: ts => t.shown :: shownItems ts

def shownEntries : List (String × Tree) → List String
  | [] => []
  | (k, t) :: es => (Quoted.quote k ++ ": " ++ t.shown) :: shownEntries es

end

end Tree

end DocSelect
