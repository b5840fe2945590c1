import DocSelect.Number.Binary64

/-!
# Numbers from text

An integer is an optional sign and digits, and has to fit into 64 bits. A floating point number is
an optional sign and then digits with at most one point among them and an optional exponent, or one
of the words for infinity and NaN in any case; it is rounded once, from its exact value.
-/
namespace DocSelect

def digitValue (c : Char) : Nat := c.toNat - '0'.toNat

def digitsValue (cs : List Char) : Nat := cs.foldl (fun n c => 10 * n + digitValue c) 0

/-- Splits off a sign; `true` is a minus. -/
def splitSign : List Char → Bool × List Char
  | '-' :: cs => (true, cs)
  | '+' :: cs => (false, cs)
  | cs => (false, cs)

/-- Whether an integer fits into 64 bits. -/
def fitsInt64 (i : Int) : Bool :=
  decide (Int64.minValue.toInt ≤ i) && decide (i ≤ Int64.maxValue.toInt)

/-- The 64-bit integer of an exact result, if it fits. -/
def int64? (i : Int) : Option Int64 := if fitsInt64 i then some (Int64.ofInt i) else none

theorem fitsInt64_iff {x : Int} :
    fitsInt64 x = true ↔ -9223372036854775808 ≤ x ∧ x ≤ 9223372036854775807 := by
  simp only [fitsInt64, Bool.and_eq_true, decide_eq_true_eq, Int64.toInt_minValue,
    Int64.toInt_maxValue]
  omega

theorem fitsInt64_toInt (i : Int64) : fitsInt64 i.toInt = true := by
  simp only [fitsInt64, Bool.and_eq_true, decide_eq_true_eq]
  exact ⟨Int64.minValue_le_toInt i, Int64.toInt_le i⟩

theorem toInt_ofInt_of_fits {x : Int} (h : fitsInt64 x = true) : (Int64.ofInt x).toInt = x := by
  obtain ⟨hlow, hhigh⟩ := fitsInt64_iff.1 h
  exact Int64.toInt_ofInt_of_le hlow (by omega)

theorem int64?_eq_some_iff {x : Int} {i : Int64} : int64? x = some i ↔ i.toInt = x := by
  constructor
  · intro h
    unfold int64? at h
    split at h
    · cases h
      exact toInt_ofInt_of_fits ‹_›
    · cases h
  · rintro rfl
    rw [int64?, if_pos (fitsInt64_toInt i), Int64.ofInt_toInt]

def readInt64? (s : String) : Option Int64 :=
  let (negative, digits) := splitSign s.toList
  if digits.isEmpty || !digits.all Char.isDigit then none
  else
    let n : Int := digitsValue digits
    int64? (if negative then -n else n)

namespace Binary64

/-- The number nearest to `n * 10 ^ exponent`. Far outside the range the powers are not computed. -/
def ofDecimal (negative : Bool) (n : Nat) (exponent : Int) : Binary64 :=
  let order := exponent + (Nat.toDigits 10 n).length
  if n = 0 ∨ order < -400 then zero negative
  else if 400 < order then infinity negative
  else if 0 ≤ exponent then round negative (n * Nat.pow 10 exponent.toNat) 1
  else round negative n (Nat.pow 10 (-exponent).toNat)

/-- The exponent part of a number: empty, or `e`, an optional sign and digits. -/
def readExponent? : List Char → Option Int
  | [] => some 0
  | e :: cs =>
    if e = 'e' ∨ e = 'E' then
      let (negative, digits) := splitSign cs
      if digits.isEmpty || !digits.all Char.isDigit then none
      else
        let n : Int := digitsValue digits
        some (if negative then -n else n)
    else none

/-- Reads digits with at most one point among them, and an exponent. -/
def readDecimal? (negative : Bool) (cs : List Char) : Option Binary64 :=
  let whole := cs.takeWhile Char.isDigit
  let rest := cs.dropWhile Char.isDigit
  let afterPoint := match rest with
    | '.' :: r => r
    | _ => []
  let fraction := afterPoint.takeWhile Char.isDigit
  let tail := match rest with
    | '.' :: r => r.dropWhile Char.isDigit
    | r => r
  if whole.isEmpty && fraction.isEmpty then none
  else
    (readExponent? tail).map fun exponent =>
      ofDecimal negative (digitsValue (whole ++ fraction)) (exponent - fraction.length)

def read? (s : String) : Option Binary64 :=
  let (negative, cs) := splitSign s.toList
  let word := String.ofList (cs.map Char.toLower)
  if word = "inf" ∨ word = "infinity" then some (infinity negative)
  else if word = "nan" then some (nan negative)
  else readDecimal? negative cs

end Binary64

end DocSelect
