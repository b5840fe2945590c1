import DocSelect.Number.Binary64

/-!
# Decimals of 96 bits

A decimal is an integer of at most 96 bits over a power of ten of at most 28 digits. Sums, products
and remainders are exact and then lose the fewest digits that make them fit; a quotient is developed
digit by digit until it ends or is full. Every operation says when it has no result.
-/
namespace DocSelect

/-- The decimal `mantissa / 10 ^ scale`, negated if `negative`. -/
structure Decimal96 where
  negative : Bool
  mantissa : Nat
  scale : Nat
  deriving DecidableEq

namespace Decimal96

def limit : Nat := 1 <<< 96

def maxScale : Nat := 28

def zero : Decimal96 := ⟨false, 0, 0⟩

def ofInt64 (i : Int64) : Decimal96 := ⟨decide (i.toInt < 0), i.toInt.natAbs, 0⟩

/-! ## From binary -/

/-- Takes `count` halvings out of `m * 10 ^ tens`: an even mantissa is halved, an odd one is
multiplied by five, or halved with loss where there is no room. -/
def absorbHalves : (count : Nat) → (m : Nat) → (tens : Int) → Nat × Int
  | 0, m, tens => (m, tens)
  | count + 1, m, tens =>
    if m % 2 = 0 then absorbHalves count (m / 2) (tens + 1)
    else if m * 5 < limit then absorbHalves count (m * 5) tens
    else absorbHalves count (m / 2) (tens + 1)

/-- Takes `count` doublings into `m * 10 ^ tens`: by doubling while there is room, then by giving up
a fifth of the mantissa. -/
def absorbDoubles : (count : Nat) → (m : Nat) → (tens : Int) → Option (Nat × Int)
  | 0, m, tens => some (m, tens)
  | count + 1, m, tens =>
    if 2 * m < limit then absorbDoubles count (m * 2) (tens - 1)
    else if tens * 2 > count + 1 then none
    else absorbDoubles count (m / 5) tens

/-- Multiplies by ten `count` times while there is room. -/
def absorbTens : (count : Nat) → (m : Nat) → Option Nat
  | 0, m => some m
  | count + 1, m => if m * 10 < limit then absorbTens count (m * 10) else none

/-- Drops `count` digits, rounding each half up; stops at zero. -/
def dropExcess : (count : Nat) → (m scale : Nat) → Nat × Nat
  | 0, m, scale => (m, scale)
  | count + 1, m, scale =>
    let rest := m / 10
    if rest = 0 then (0, 0)
    else dropExcess count (if 5 ≤ m % 10 then rest + 1 else rest) (scale - 1)

/-- Drops digits after the point while the mantissa has more than 52 bits, rounding each half up. -/
def dropToPrecision : (scale m : Nat) → Nat × Nat
  | 0, m => (m, 0)
  | scale + 1, m =>
    if Binary64.leadingBit ≤ m then
      dropToPrecision scale (if 5 ≤ m % 10 then m / 10 + 1 else m / 10)
    else (m, scale + 1)

def dropZeros : (scale m : Nat) → Nat × Nat
  | 0, m => (m, 0)
  | scale + 1, m => if m % 10 = 0 then dropZeros scale (m / 10) else (m, scale + 1)

/-- The decimal for a binary number, with as many digits as 52 bits carry. -/
def ofBinary? (x : Binary64) : Option Decimal96 :=
  match x.parts with
  | .finite negative m e =>
    if m = 0 then some zero
    else do
      let (m, tens) ←
        if e < 0 then some (absorbHalves (-e).toNat m e) else absorbDoubles e.toNat m e
      -- ten is a whole factor of an integer, and a scale cannot be negative
      if 0 < tens then
        return ⟨negative, ← absorbTens tens.toNat m, 0⟩
      let (m, scale) := dropExcess ((-tens).toNat - maxScale) m (-tens).toNat
      let (m, scale) := dropToPrecision scale m
      let (m, scale) := dropZeros scale m
      return ⟨negative, m, scale⟩
  | _ => none

/-! ## To binary -/

/-- `base ^ n` by squaring, rounded at every step; `fuel` bounds the number of bits of `n`. -/
def powerBySquaring : (fuel : Nat) → (result base : Binary64) → (n : Nat) → Binary64
  | 0, result, _, _ => result
  | fuel + 1, result, base, n =>
    let result := if n % 2 = 1 then result.mul base else result
    if n / 2 = 0 then result else powerBySquaring fuel result (base.mul base) (n / 2)

/-- The binary number of a decimal: the whole part plus the fraction, rounded to the decimal's own
number of digits. -/
def toBinary (d : Decimal96) : Binary64 :=
  let signed (x : Binary64) : Binary64 := if d.negative then x.neg else x
  if d.mantissa = 0 && d.scale = 0 then Binary64.zero false
  else if d.scale = 0 then signed (Binary64.ofNat d.mantissa)
  else
    let p := Nat.pow 10 d.scale
    let whole := Binary64.ofNat (d.mantissa / p)
    let fraction := (Binary64.ofNat (d.mantissa % p)).div (Binary64.ofNat p)
    if fraction.isZero then signed whole
    else
      let unit := powerBySquaring 8 Binary64.one (Binary64.ofNat 10) d.scale
      signed (((whole.add fraction).mul unit).roundAway.div unit)

/-! ## Arithmetic -/

/-- Drops the fewest digits, rounding the exact value to even, such that the rest fits. -/
def fit (negative : Bool) (mantissa scale : Nat) : Option Decimal96 :=
  let dropped? := (List.range (scale + 1)).find? fun k =>
    decide (scale - k ≤ maxScale) &&
      decide (Binary64.divideToEven mantissa (Nat.pow 10 k) < limit)
  dropped?.map fun k => ⟨negative, Binary64.divideToEven mantissa (Nat.pow 10 k), scale - k⟩

/-- The mantissa at a larger scale, with the sign. -/
def signedAt (d : Decimal96) (scale : Nat) : Int :=
  let m : Int := d.mantissa * Nat.pow 10 (scale - d.scale)
  if d.negative then -m else m

def neg (d : Decimal96) : Decimal96 := ⟨!d.negative, d.mantissa, d.scale⟩

/-- The sum. A zero operand leaves the other one as it is. -/
def add? (a b : Decimal96) : Option Decimal96 :=
  -- not rescaled, and so the other operand may keep more digits than a sum would have
  if a.mantissa = 0 then some b
  else if b.mantissa = 0 then some a
  else
    let scale := max a.scale b.scale
    let sum := a.signedAt scale + b.signedAt scale
    fit (decide (sum < 0)) sum.natAbs scale

def sub? (a b : Decimal96) : Option Decimal96 := add? a b.neg

def mul? (a b : Decimal96) : Option Decimal96 :=
  if a.mantissa = 0 ∨ b.mantissa = 0 then some zero
  else fit (a.negative != b.negative) (a.mantissa * b.mantissa) (a.scale + b.scale)

/-- The greatest number of digits, at most nine, by which a quotient may still grow. -/
def roomFor (q : Nat) (scale : Int) : Nat :=
  ((List.range 10).reverse.find? fun (p : Nat) =>
    decide (scale + p ≤ maxScale) && decide ((q + 1) * Nat.pow 10 p - 1 < limit)).getD 0

/--
Develops the quotient `q` with remainder `r` by up to nine digits at a time. The result says whether
zeros at its end may have to be dropped. Each round raises the scale, which starts at -28 or above
and ends at 28 or below, so 60 rounds suffice.
-/
def develop (divisor : Nat) : (fuel : Nat) → (q r : Nat) → (scale : Int) → (strip : Bool) →
    Option (Nat × Nat × Bool)
  | 0, _, _, _, _ => none
  | fuel + 1, q, r, scale, strip =>
    let grow (p : Nat) (strip : Bool) : Option (Nat × Nat × Bool) :=
      let t := r * Nat.pow 10 p
      let q := q * Nat.pow 10 p + t / divisor
      if q < limit then develop divisor fuel q (t % divisor) (scale + p) strip else none
    if r = 0 then
      -- exact: only a negative scale still has to be made up for
      if 0 ≤ scale then some (q, scale.toNat, strip) else grow (min 9 (-scale).toNat) strip
    else
      match roomFor q scale with
      | 0 =>
        -- full: what is left of the remainder rounds the last digit
        if scale < 0 then none
        else
          let roundsUp := divisor < 2 * r ∨ (2 * r = divisor ∧ q % 2 = 1)
          let q := if roundsUp then q + 1 else q
          if q < limit then some (q, scale.toNat, true) else none
      | p => grow p true

/-- Drops `10 ^ k` once if it divides the mantissa and the scale allows it. -/
def stripOnce (k : Nat) (d : Nat × Nat) : Nat × Nat :=
  if k ≤ d.2 ∧ d.1 % Nat.pow 10 k = 0 then (d.1 / Nat.pow 10 k, d.2 - k) else d

/-- Drops eight zeros at a time while the mantissa's low 32 bits are clear. -/
def stripEights : (fuel : Nat) → Nat × Nat → Nat × Nat
  | 0, d => d
  | fuel + 1, d =>
    if d.1 % UInt32.size = 0 ∧ 8 ≤ d.2 ∧ d.1 % Nat.pow 10 8 = 0 then
      stripEights fuel (d.1 / Nat.pow 10 8, d.2 - 8)
    else d

/-- The quotient, for a divisor that is not zero. -/
def div? (a b : Decimal96) : Option Decimal96 :=
  if b.mantissa = 0 then none
  else if a.mantissa = 0 then some zero
  else
    (develop b.mantissa 60 (a.mantissa / b.mantissa) (a.mantissa % b.mantissa)
      ((a.scale : Int) - b.scale) false).map fun (q, scale, strip) =>
        let (m, s) :=
          if strip then stripOnce 1 (stripOnce 2 (stripOnce 4 (stripEights 4 (q, scale))))
          else (q, scale)
        ⟨a.negative != b.negative, m, s⟩

/-- The remainder, with the sign of the dividend unless it is zero, for a divisor that is not
zero. -/
def rem? (a b : Decimal96) : Option Decimal96 :=
  if b.mantissa = 0 then none
  else if a.mantissa = 0 then some zero
  else
    let scale := max a.scale b.scale
    let m := (a.signedAt scale).natAbs
    let n := (b.signedAt scale).natAbs
    if m = n then some zero
    else if m < n then some a
    else some ⟨a.negative && m % n != 0, m % n, scale⟩

end Decimal96

end DocSelect
