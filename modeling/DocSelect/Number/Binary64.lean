/-!
# Binary floating point

A binary64 number is its 64 bits: a sign, eleven exponent bits and 52 fraction bits. The finite
numbers are read as exact scaled integers, every operation is carried out exactly on those, and
`round` takes the exact result to the nearest number, a tie to the even one. So an operation here is
the exact operation followed by one rounding, and nothing else.

The sign and the fraction of what is not a number are kept, because the total order looks at them.
-/
namespace DocSelect

/-- A binary64 number, given by its bits. -/
structure Binary64 where
  bits : UInt64
  deriving DecidableEq, Inhabited

namespace Binary64

/-- What the bits stand for; a finite number is `mantissa * 2 ^ exponent`, negated if `negative`. -/
inductive Parts where
  | nan (negative : Bool)
  | infinite (negative : Bool)
  | finite (negative : Bool) (mantissa : Nat) (exponent : Int)
  deriving DecidableEq

/-- The least exponent of a finite number: that of the subnormal ones. -/
def minExponent : Int := -1074

def signBit : Nat := 1 <<< 63

/-- The value of the leading bit that a mantissa of full precision has, above 52 fraction bits. -/
def leadingBit : Nat := 1 <<< 52

/-- The magnitude bits of infinity; those above it are not numbers. -/
def infinityMagnitude : Nat := 2047 * leadingBit

def negative (x : Binary64) : Bool := decide (signBit ≤ x.bits.toNat)

/-- All bits but the sign. On numbers that are not NaN it orders them by absolute value. -/
def magnitude (x : Binary64) : Nat := x.bits.toNat % signBit

def ofMagnitude (negative : Bool) (magnitude : Nat) : Binary64 :=
  ⟨UInt64.ofNat ((if negative then signBit else 0) + magnitude)⟩

/-- Reads the three fields. A zero exponent field has no implicit leading bit. -/
def parts (x : Binary64) : Parts :=
  let field : Nat := x.magnitude / leadingBit
  let fraction : Nat := x.magnitude % leadingBit
  if field = 2047 then
    if fraction = 0 then .infinite x.negative else .nan x.negative
  else if field = 0 then .finite x.negative fraction minExponent
  else .finite x.negative (leadingBit + fraction) ((field : Int) - 1075)

def zero (negative : Bool) : Binary64 := ofMagnitude negative 0

def infinity (negative : Bool) : Binary64 := ofMagnitude negative infinityMagnitude

/-- The quiet NaN of this sign. -/
def nan (negative : Bool) : Binary64 := ofMagnitude negative (infinityMagnitude + leadingBit / 2)

/-- What an operation without a defined result gives. -/
def invalid : Binary64 := nan true

def isNaN (x : Binary64) : Bool := decide (infinityMagnitude < x.magnitude)

def isFinite (x : Binary64) : Bool := decide (x.magnitude < infinityMagnitude)

def isZero (x : Binary64) : Bool := decide (x.magnitude = 0)

/-- The quotient `num / den` to the nearest integer, a tie to the even one. -/
def divideToEven (num den : Nat) : Nat :=
  let q := num / den
  let r := num % den
  if den < 2 * r ∨ (2 * r = den ∧ q % 2 = 1) then q + 1 else q

/--
The number nearest to `num / den`, a tie to the one with an even mantissa, with the given sign.
The exponent is the one that leaves 53 bits, or the least one; a mantissa that rounds up to `2 ^ 53`
carries into the exponent field, and what is then too large is infinite.
-/
def round (negative : Bool) (num den : Nat) : Binary64 :=
  if num = 0 then zero negative
  else
    let estimate : Int := (num.log2 : Int) - den.log2 - 52
    let atLeast (e : Int) : Bool :=
      -- whether num / den ≥ 2 ^ (e + 52)
      let shift := e + 52
      if 0 ≤ shift then decide (den <<< shift.toNat ≤ num)
      else decide (den ≤ num <<< (-shift).toNat)
    let fitted := if atLeast estimate then estimate else estimate - 1
    let exponent := max fitted minExponent
    let mantissa :=
      if 0 ≤ exponent then divideToEven num (den <<< exponent.toNat)
      else divideToEven (num <<< (-exponent).toNat) den
    -- the leading bit of a full mantissa adds one to the exponent field
    let encoded := (exponent - minExponent).toNat * leadingBit + mantissa
    ofMagnitude negative (min encoded infinityMagnitude)

/-- The number nearest to `mantissa * 2 ^ exponent`. -/
def scaled (negative : Bool) (mantissa : Nat) (exponent : Int) : Binary64 :=
  if 0 ≤ exponent then round negative (mantissa <<< exponent.toNat) 1
  else round negative mantissa (1 <<< (-exponent).toNat)

/-- The number nearest to an integer; zero is positive. -/
def ofInt (i : Int) : Binary64 := round (decide (i < 0)) i.natAbs 1

def ofNat (n : Nat) : Binary64 := round false n 1

def tenPow (n : Nat) : Binary64 := ofNat (Nat.pow 10 n)

def one : Binary64 := ofNat 1

def neg (x : Binary64) : Binary64 := ofMagnitude (!x.negative) x.magnitude

def abs (x : Binary64) : Binary64 := ofMagnitude false x.magnitude

/-- A NaN with its quiet bit, the first of the fraction, set. -/
def quieted (x : Binary64) : Binary64 :=
  if infinityMagnitude + leadingBit / 2 ≤ x.magnitude then x
  else ofMagnitude x.negative (x.magnitude + leadingBit / 2)

/-- A NaN operand decides the result: the first one, made quiet. -/
def propagate (x y : Binary64) : Binary64 := quieted (if x.isNaN then x else y)

/-- `± m * 2 ^ e` as an integer multiple of `2 ^ base`, for `base ≤ e`. -/
private def multiple (negative : Bool) (m : Nat) (e base : Int) : Int :=
  let magnitude : Int := m <<< (e - base).toNat
  if negative then -magnitude else magnitude

/-- The sum. A zero sum is positive unless both operands are negative. -/
def add (x y : Binary64) : Binary64 :=
  match x.parts, y.parts with
  | .nan _, _ => propagate x y
  | _, .nan _ => propagate x y
  | .infinite s, .infinite t => if s = t then infinity s else invalid
  | .infinite s, .finite .. => infinity s
  | .finite .., .infinite t => infinity t
  | .finite s m e, .finite t n f =>
    -- over the smaller unit both operands are integers
    let base := min e f
    let sum := multiple s m e base + multiple t n f base
    if sum = 0 then zero (s && t) else scaled (decide (sum < 0)) sum.natAbs base

def sub (x y : Binary64) : Binary64 :=
  if x.isNaN || y.isNaN then propagate x y else add x y.neg

def mul (x y : Binary64) : Binary64 :=
  match x.parts, y.parts with
  | .nan _, _ => propagate x y
  | _, .nan _ => propagate x y
  | .infinite s, .infinite t => infinity (s != t)
  | .infinite s, .finite t n _ => if n = 0 then invalid else infinity (s != t)
  | .finite s m _, .infinite t => if m = 0 then invalid else infinity (s != t)
  | .finite s m e, .finite t n f => scaled (s != t) (m * n) (e + f)

def div (x y : Binary64) : Binary64 :=
  match x.parts, y.parts with
  | .nan _, _ => propagate x y
  | _, .nan _ => propagate x y
  | .infinite _, .infinite _ => invalid
  | .infinite s, .finite t .. => infinity (s != t)
  | .finite s .., .infinite t => zero (s != t)
  | .finite s m e, .finite t n f =>
    if n = 0 then
      if m = 0 then invalid else infinity (s != t)
    else
      let shift := e - f
      if 0 ≤ shift then round (s != t) (m <<< shift.toNat) n
      else round (s != t) m (n <<< (-shift).toNat)

/-- The exact remainder of a division truncated toward zero; it has the sign of the dividend. -/
def rem (x y : Binary64) : Binary64 :=
  match x.parts, y.parts with
  | .nan _, _ => propagate x y
  | _, .nan _ => propagate x y
  | .infinite _, _ => invalid
  | .finite .., .infinite _ => x
  | .finite s m e, .finite _ n f =>
    if n = 0 then invalid
    else
      let base := min e f
      let r := (m <<< (e - base).toNat) % (n <<< (f - base).toNat)
      if r = 0 then zero s else scaled s r base

/-- Numeric equality: both zeros are equal, and a NaN equals nothing. -/
def equal (x y : Binary64) : Bool :=
  !x.isNaN && !y.isNaN && (x == y || (x.isZero && y.isZero))

/-- The place of a number in the total order: by value, `-0` before `0`, and the NaN of either sign
at the end of its side. -/
def orderKey (x : Binary64) : Int :=
  if x.negative then -(x.magnitude : Int) - 1 else x.magnitude

def totalCompare (x y : Binary64) : Ordering := compare x.orderKey y.orderKey

/-- Numeric `≤`, false as soon as one side is a NaN. -/
def le (x y : Binary64) : Bool :=
  !x.isNaN && !y.isNaN && ((x.isZero && y.isZero) || decide (x.orderKey ≤ y.orderKey))

/-- The nearest integer, a tie away from zero, as a number. -/
def roundAway (x : Binary64) : Binary64 :=
  match x.parts with
  | .finite s m e =>
    if 0 ≤ e then x
    else
      let unit := 1 <<< (-e).toNat
      round s ((2 * m + unit) / (2 * unit)) 1
  | _ => x

/-- The integer part of a finite number, with its sign. -/
def truncated? (x : Binary64) : Option Int :=
  match x.parts with
  | .finite s m e =>
    let whole : Int := if 0 ≤ e then m <<< e.toNat else m >>> (-e).toNat
    some (if s then -whole else whole)
  | _ => none

/-- The integer part as a 64-bit integer: what is out of range goes to the nearer end, and a NaN to
zero. -/
def toInt64 (x : Binary64) : Int64 :=
  match x.truncated? with
  | some i =>
    if i < Int64.minValue.toInt then Int64.minValue
    else if Int64.maxValue.toInt < i then Int64.maxValue
    else Int64.ofInt i
  | none =>
    if x.isNaN then 0 else if x.negative then Int64.minValue else Int64.maxValue

def ofInt64 (i : Int64) : Binary64 := ofInt i.toInt

end Binary64

end DocSelect
