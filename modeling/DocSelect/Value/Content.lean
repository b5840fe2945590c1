import DocSelect.Number.Binary64

/-!
# What a value holds

The content of a value is the tree that a reader of the document sees: scalars, slices and maps,
with no regard to which of its parts are shared.
-/
namespace DocSelect

/-- A value without parts. -/
inductive Scalar where
  | null
  | bool (b : Bool)
  | int (i : Int64)
  | float (x : Binary64)
  | string (s : String)
  deriving DecidableEq, Inhabited

/-- The content of a value; the keys of a map are in the map's own order. -/
inductive Content where
  | scalar (a : Scalar)
  | slice (items : List Content)
  | map (entries : List (String × Content))
  deriving Inhabited

namespace Content

def null : Content := scalar .null

def bool (b : Bool) : Content := scalar (.bool b)

def int (i : Int64) : Content := scalar (.int i)

def float (x : Binary64) : Content := scalar (.float x)

def string (s : String) : Content := scalar (.string s)

end Content

end DocSelect
