import DocSelect.Number.Binary64

/-!
# The fewest digits that read back

`shortest` gives the decimal of fewest digits that rounds to a given number, and of those the one
nearest to it. Everything is exact: the number is a fraction, the decimals that round to it form an
interval around it, and on the grid of decimals with `n` digits only its two neighbours need to be
tried. Seventeen digits always suffice.
-/
namespace DocSelect

structure Decimal where
  significand : Nat
  exponent : Int
  deriving DecidableEq

namespace Decimal

/-- How many decimal digits a natural number has; zero has one. -/
def digitCount (n : Nat) : Nat := (Nat.toDigits 10 n).length

/-- The exponent of the first digit of a decimal. -/
def leading (d : Decimal) : Int := d.exponent + digitCount d.significand - 1

/-- Drops up to `limit` zeros at the end of the significand. -/
def trim : (limit : Nat) → Decimal → Decimal
  | 0, d => d
  | limit + 1, d =>
    if d.significand ≠ 0 ∧ d.significand % 10 = 0 then
      trim limit ⟨d.significand / 10, d.exponent + 1⟩
    else d

end Decimal

/-- Which of two equally near decimals is taken. -/
inductive Tie where
  /-- the larger one -/
  | up
  /-- the one whose last digit is even -/
  | even
  deriving DecidableEq

namespace Shortest

/-- A positive fraction and the interval of fractions that round to it, all over one denominator. -/
structure Target where
  value : Nat
  low : Nat
  high : Nat
  den : Nat
  /-- whether the ends of the interval round to the value too -/
  closed : Bool

/--
The interval of `mantissa * 2 ^ exponent`: half a step up, and half a step down, which is half as
large where the next lower number has a smaller exponent. The ends belong to an even mantissa.
-/
def target (mantissa : Nat) (exponent : Int) : Target :=
  let shrink : Nat := if mantissa = Binary64.leadingBit then 1 else 2
  let up := 1 <<< exponent.toNat
  let den := 1 <<< (-exponent).toNat
  { value := 4 * mantissa * up
    low := (4 * mantissa - shrink) * up
    high := (4 * mantissa + 2) * up
    den := 4 * den
    closed := mantissa % 2 = 0 }

/-- Whether the fraction `num / (den * t.den)` rounds to the target. -/
def Target.admits (t : Target) (num den : Nat) : Bool :=
  if t.closed then decide (t.low * den ≤ num) && decide (num ≤ t.high * den)
  else decide (t.low * den < num) && decide (num < t.high * den)

/-- The exponent of the first digit of the target's value. -/
def Target.leading (t : Target) : Int :=
  if t.den ≤ t.value then (Decimal.digitCount (t.value / t.den) : Int) - 1
  else -(Decimal.digitCount ((t.den - 1) / t.value) : Int)

/--
The better of the value's two neighbours among the multiples of `10 ^ exponent`, if one of them
rounds to the target.
-/
def Target.onGrid? (t : Target) (tie : Tie) (exponent : Int) : Option Decimal :=
  -- a neighbour `k` stands for `k * unit / den` over the target's denominator
  let unit := Nat.pow 10 exponent.toNat * t.den
  let den := Nat.pow 10 (-exponent).toNat
  let below := t.value * den / unit
  let rest := t.value * den % unit
  let down := t.admits (below * unit) den
  let up := t.admits ((below + 1) * unit) den
  let preferUp :=
    decide (unit < 2 * rest) ||
      (decide (2 * rest = unit) && (tie == .up || below % 2 == 1))
  if up && (preferUp || !down) then some ⟨below + 1, exponent⟩
  else if down then some ⟨below, exponent⟩
  else none

/-- Tries grids of more and more digits. -/
def Target.search (t : Target) (tie : Tie) (leading : Int) : (tries digits : Nat) → Option Decimal
  | 0, _ => none
  | tries + 1, digits =>
    match t.onGrid? tie (leading - digits + 1) with
    | some d => some d
    | none => t.search tie leading tries (digits + 1)

end Shortest

/--
The decimal of fewest digits that rounds to the positive number `mantissa * 2 ^ exponent`. It ends
in no zero.
-/
def shortest (tie : Tie) (mantissa : Nat) (exponent : Int) : Decimal :=
  let t := Shortest.target mantissa exponent
  match t.search tie t.leading 17 1 with
  | some d => d.trim 17
  | none => ⟨mantissa, exponent⟩

end DocSelect
