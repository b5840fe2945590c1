import DocSelect.Text.Quoted
import DocSelect.Value.Content

/-!
# Kinds of values

The kinds that messages tell apart, and the errors of operations on values.
-/
namespace DocSelect

inductive Kind where
  | null
  | bool
  | int
  | float
  | string
  | slice
  | map
  deriving DecidableEq, Inhabited

namespace Kind

def name : Kind → String
  | null => "null"
  | bool => "bool"
  | int => "int"
  | float => "float"
  | string => "string"
  | slice => "array"
  | map => "map"

/-- Whether values of this kind have no parts. -/
def isScalar : Kind → Bool
  | slice | map => false
  | _ => true

def isNumeric : Kind → Bool
  | int | float => true
  | _ => false

end Kind

def Scalar.kind : Scalar → Kind
  | null => .null
  | bool _ => .bool
  | int _ => .int
  | float _ => .float
  | string _ => .string

inductive ValueError where
  | keyNotFound (key : String)
  | indexOutOfRange (index : Int64) (length : Nat)
  | unexpectedKind (expected actual : Kind)
  | incompatibleKinds (left right : Kind)
  | divisionByZero
  | integerOverflow
  deriving DecidableEq

namespace ValueError

def message : ValueError → String
  | keyNotFound key => "map key not found: " ++ Quoted.quote key
  | indexOutOfRange index length =>
    "slice index out of range: " ++ toString index.toInt ++ s!" (length {length})"
  | unexpectedKind expected actual => "expected " ++ expected.name ++ ", got " ++ actual.name
  | incompatibleKinds left right => "incompatible types: " ++ left.name ++ " and " ++ right.name
  | divisionByZero => "division by zero"
  | integerOverflow => "integer overflow"

end ValueError

end DocSelect
