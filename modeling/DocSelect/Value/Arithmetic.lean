import DocSelect.Number.Decimal96
import DocSelect.Number.Reading
import DocSelect.Value.Store

/-!
# Arithmetic on values

Integers stay integers, and a result that does not fit into 64 bits is an error. Where a floating
point number takes part the result is one. It is computed in decimal if both operands are short
decimals and the result agrees with the binary one up to its precision, so that `1.1 + 2.2` is
`3.3`; otherwise the binary result stands. Adding texts joins them.
-/
namespace DocSelect

inductive Arithmetic where
  | add
  | subtract
  | multiply
  | divide
  | modulo
  deriving DecidableEq

namespace Arithmetic

/-- Whether the operation has no result for a zero on the right. -/
def divides : Arithmetic → Bool
  | divide | modulo => true
  | _ => false

/-- The exact result; a quotient is truncated, and a remainder has the sign of the dividend. -/
def exact (op : Arithmetic) (a b : Int) : Int :=
  match op with
  | add => a + b
  | subtract => a - b
  | multiply => a * b
  | divide => a.tdiv b
  | modulo => a.tmod b

/-- Whether an integer operation has a result that the 64-bit operation cannot deliver: one out of
range, or a remainder whose quotient is. -/
def overflows (op : Arithmetic) (a b : Int) : Bool :=
  match op with
  | modulo => !fitsInt64 (a.tdiv b)
  | _ => !fitsInt64 (exact op a b)

def ints (op : Arithmetic) (a b : Int64) : Except ValueError Int64 :=
  if op.divides && b == 0 then .error .divisionByZero
  else if op.overflows a.toInt b.toInt then .error .integerOverflow
  else .ok (Int64.ofInt (op.exact a.toInt b.toInt))

def binary (op : Arithmetic) (a b : Binary64) : Binary64 :=
  match op with
  | add => a.add b
  | subtract => a.sub b
  | multiply => a.mul b
  | divide => a.div b
  | modulo => a.rem b

def decimal? (op : Arithmetic) (a b : Decimal96) : Option Decimal96 :=
  match op with
  | add => a.add? b
  | subtract => a.sub? b
  | multiply => a.mul? b
  | divide => a.div? b
  | modulo => a.rem? b

end Arithmetic

inductive Numeral where
  | int (i : Int64)
  | float (x : Binary64)

namespace Numeral

def ofScalar? : Scalar → Option Numeral
  | .int i => some (int i)
  | .float x => some (float x)
  | _ => none

def binary : Numeral → Binary64
  | int i => Binary64.ofInt64 i
  | float x => x

/-- The decimal of an operand, if it converts back to it. -/
def decimal? : Numeral → Option Decimal96
  | int i => some (Decimal96.ofInt64 i)
  | float x => (Decimal96.ofBinary? x).filter fun d => d.toBinary.equal x

end Numeral

namespace Arithmetic

/-- How far, relative to the binary result, the decimal one may be off. -/
def tolerance : Binary64 := Binary64.ofDecimal false 1 (-12)

/-- Whether a decimal result agrees with the binary one. -/
def agrees (result reference : Binary64) : Bool :=
  (result.sub reference).abs.le (reference.abs.mul tolerance)

/-- The result where a floating point number takes part. -/
def floats (op : Arithmetic) (a b : Numeral) : Except ValueError Binary64 :=
  if op.divides && b.binary.isZero then .error .divisionByZero
  else
    let reference := op.binary a.binary b.binary
    let decimal? := do (← op.decimal? (← a.decimal?) (← b.decimal?)).toBinary
    match decimal? with
    | some result => .ok (if agrees result reference then result else reference)
    | none => .ok reference

def scalars (op : Arithmetic) : Scalar → Scalar → Except ValueError Scalar
  | .int a, .int b => return .int (← op.ints a b)
  | .string a, .string b =>
    if op = .add then .ok (.string (a ++ b)) else .error (.incompatibleKinds .string .string)
  | a, b =>
    match Numeral.ofScalar? a, Numeral.ofScalar? b with
    | some x, some y => return .float (← op.floats x y)
    | _, _ => .error (.incompatibleKinds a.kind b.kind)

end Arithmetic

def Store.arithmetic? (s : Store) (op : Arithmetic) (a b : Ref) : Except ValueError Scalar :=
  match s.data a, s.data b with
  | .scalar x, .scalar y => op.scalars x y
  | x, y => .error (.incompatibleKinds x.kind y.kind)

end DocSelect
