import DocSelect.Number.Binary64
import Mathlib.Data.Nat.Log
import Mathlib.Tactic.Ring

/-!
# Integers in the order of floating point numbers

An integer is compared with a floating point number by the number nearest to it. Rounding keeps the
order of integers, except that some of them fall together: it is monotone, and not injective.

The bits of a positive number are its exponent and its mantissa in a row. For an integer the
exponent is the place of the leading bit, and the mantissa the quotient that leaves 53 bits. One
that is rounded up to `2 ^ 53` carries into the exponent, and the order stays.
-/
namespace DocSelect.Binary64

-- ---------------------------------------------------------------------------
-- Signs and magnitudes
-- ---------------------------------------------------------------------------

theorem toNat_bits_ofMagnitude {negative : Bool} {m : Nat} (h : m < signBit) :
    (ofMagnitude negative m).bits.toNat = (if negative then signBit else 0) + m := by
  have hbit : signBit = 2 ^ 63 := by decide
  have hlt : (if negative then signBit else 0) + m < 2 ^ 64 := by split <;> omega
  exact UInt64.toNat_ofNat_of_lt' hlt

theorem magnitude_ofMagnitude {negative : Bool} {m : Nat} (h : m < signBit) :
    (ofMagnitude negative m).magnitude = m := by
  rw [magnitude, toNat_bits_ofMagnitude h]
  cases negative <;> simp [Nat.mod_eq_of_lt h]

theorem negative_ofMagnitude {negative : Bool} {m : Nat} (h : m < signBit) :
    (ofMagnitude negative m).negative = negative := by
  rw [Binary64.negative, toNat_bits_ofMagnitude h]
  cases negative <;> simp [h]

theorem orderKey_ofMagnitude {negative : Bool} {m : Nat} (h : m < signBit) :
    (ofMagnitude negative m).orderKey = if negative then -(m : Int) - 1 else m := by
  rw [orderKey, negative_ofMagnitude h, magnitude_ofMagnitude h]

-- ---------------------------------------------------------------------------
-- Rounding natural numbers
-- ---------------------------------------------------------------------------

theorem divideToEven_cases (num den : Nat) :
    divideToEven num den = num / den ∨ divideToEven num den = num / den + 1 := by
  unfold divideToEven
  dsimp only
  split
  · exact .inr rfl
  · exact .inl rfl

theorem divideToEven_mono {m n : Nat} (den : Nat) (h : m ≤ n) :
    divideToEven m den ≤ divideToEven n den := by
  rcases Nat.lt_or_eq_of_le (Nat.div_le_div_right (c := den) h) with hlt | heq
  · rcases divideToEven_cases m den with hm | hm <;>
      rcases divideToEven_cases n den with hn | hn <;> omega
  · -- with the same quotient the remainders are in order, and decide in the same way
    have hrest : m % den ≤ n % den := by
      have hm := Nat.div_add_mod m den
      have hn := Nat.div_add_mod n den
      rw [heq] at hm
      omega
    unfold divideToEven
    dsimp only
    rw [heq]
    split <;> split <;> omega

def mantissaOf (n : Nat) : Nat :=
  if 52 ≤ n.log2 then divideToEven n (2 ^ (n.log2 - 52)) else n * 2 ^ (52 - n.log2)

theorem leadingBit_eq : leadingBit = 2 ^ 52 := by decide

theorem leadingBit_le_mantissaOf {n : Nat} (hn : n ≠ 0) : leadingBit ≤ mantissaOf n := by
  have hlog := Nat.log2_self_le hn
  rw [leadingBit_eq, mantissaOf]
  split
  · rename_i hle
    have hsplit : 2 ^ 52 * 2 ^ (n.log2 - 52) = 2 ^ n.log2 := pow_mul_pow_sub 2 hle
    have hquotient : 2 ^ 52 ≤ n / 2 ^ (n.log2 - 52) :=
      (Nat.le_div_iff_mul_le (Nat.two_pow_pos _)).2 (hsplit ▸ hlog)
    rcases divideToEven_cases n (2 ^ (n.log2 - 52)) with h | h <;> omega
  · have hsplit : 2 ^ n.log2 * 2 ^ (52 - n.log2) = 2 ^ 52 := pow_mul_pow_sub 2 (by omega)
    exact hsplit ▸ Nat.mul_le_mul_right _ hlog

theorem mantissaOf_le (n : Nat) : mantissaOf n ≤ 2 * leadingBit := by
  have hlog := @Nat.lt_log2_self n
  rw [leadingBit_eq, mantissaOf]
  split
  · have hsplit : 2 ^ 53 * 2 ^ (n.log2 - 52) = 2 ^ (n.log2 + 1) := by
      rw [← Nat.pow_add]; congr 1; omega
    have hquotient : n / 2 ^ (n.log2 - 52) < 2 ^ 53 :=
      (Nat.div_lt_iff_lt_mul (Nat.two_pow_pos _)).2 (hsplit ▸ hlog)
    rcases divideToEven_cases n (2 ^ (n.log2 - 52)) with h | h <;> omega
  · have hsplit : 2 ^ (n.log2 + 1) * 2 ^ (52 - n.log2) = 2 ^ 53 := by
      rw [← Nat.pow_add]; congr 1; omega
    have hle := Nat.mul_le_mul_right (2 ^ (52 - n.log2)) (Nat.le_of_lt hlog)
    omega

theorem mantissaOf_mono {m n : Nat} (h : m ≤ n) (hlog : m.log2 = n.log2) :
    mantissaOf m ≤ mantissaOf n := by
  unfold mantissaOf
  rw [hlog]
  split
  · exact divideToEven_mono _ h
  · exact Nat.mul_le_mul_right _ h

def magnitudeOf (n : Nat) : Nat :=
  if n = 0 then 0 else min ((n.log2 + 1022) * leadingBit + mantissaOf n) infinityMagnitude

theorem magnitudeOf_lt (n : Nat) : magnitudeOf n < signBit := by
  have hinfinity : infinityMagnitude < signBit := by decide
  unfold magnitudeOf
  split <;> omega

theorem magnitudeOf_mono {m n : Nat} (h : m ≤ n) : magnitudeOf m ≤ magnitudeOf n := by
  unfold magnitudeOf
  split
  · exact Nat.zero_le _
  rename_i hm
  have hn : n ≠ 0 := by omega
  rw [if_neg hn]
  have hlog : m.log2 ≤ n.log2 := (Nat.le_log2 hn).2 (Nat.le_trans (Nat.log2_self_le hm) h)
  have hcarry := mantissaOf_le m
  have hfull := leadingBit_le_mantissaOf hn
  generalize leadingBit = unit at hcarry hfull ⊢
  refine min_le_min_right _ ?_
  rcases Nat.lt_or_eq_of_le hlog with hlt | heq
  · -- the mantissa carries into the exponent at most once
    calc (m.log2 + 1022) * unit + mantissaOf m
      _ ≤ (m.log2 + 1022) * unit + 2 * unit := Nat.add_le_add_left hcarry _
      _ = (m.log2 + 1 + 1022) * unit + unit := by ring
      _ ≤ (n.log2 + 1022) * unit + mantissaOf n :=
        Nat.add_le_add (Nat.mul_le_mul_right _ (by omega)) hfull
  · rw [heq]
    exact Nat.add_le_add_left (mantissaOf_mono h heq) _

/-- The exponent of a rounded natural number is a normal one, so nothing is lost at the lower
end. -/
theorem round_one (negative : Bool) (n : Nat) :
    round negative n 1 = ofMagnitude negative (magnitudeOf n) := by
  unfold round magnitudeOf
  split
  · rfl
  rename_i hn
  have hone : (1 : Nat).log2 = 0 := by decide
  have hleading : 1 <<< n.log2 ≤ n := by
    rw [Nat.shiftLeft_eq, Nat.one_mul]
    exact Nat.log2_self_le hn
  have hplace : (n.log2 : Int) - 52 + 52 = n.log2 := by omega
  have hnormal : max ((n.log2 : Int) - 52) minExponent = n.log2 - 52 := by
    rw [minExponent]
    omega
  have hfield : ((n.log2 : Int) - 52 - minExponent).toNat = n.log2 + 1022 := by
    rw [minExponent]
    omega
  have hmantissa : (if 0 ≤ (n.log2 : Int) - 52 then
      divideToEven n (1 <<< ((n.log2 : Int) - 52).toNat)
      else divideToEven (n <<< (-((n.log2 : Int) - 52)).toNat) 1) = mantissaOf n := by
    have hwhole (k : Nat) : divideToEven k 1 = k := by simp [divideToEven, Nat.mod_one]
    unfold mantissaOf
    simp only [Nat.shiftLeft_eq, Nat.one_mul, hwhole]
    split <;> rename_i h
    · rw [if_pos (by omega), show ((n.log2 : Int) - 52).toNat = n.log2 - 52 by omega]
    · rw [if_neg (by omega), show (-((n.log2 : Int) - 52)).toNat = 52 - n.log2 by omega]
  simp only [hone, Nat.cast_zero, sub_zero, hplace, Int.natCast_nonneg, if_true,
    Int.toNat_natCast, hleading, decide_true, hnormal, hfield, hmantissa]

-- ---------------------------------------------------------------------------
-- Integers
-- ---------------------------------------------------------------------------

theorem orderKey_ofInt (i : Int) :
    (ofInt i).orderKey =
      if i < 0 then -(magnitudeOf i.natAbs : Int) - 1 else magnitudeOf i.natAbs := by
  rw [ofInt, round_one, orderKey_ofMagnitude (magnitudeOf_lt _)]
  simp only [decide_eq_true_eq]

theorem orderKey_ofInt64_mono {i j : Int64} (h : i.toInt ≤ j.toInt) :
    (ofInt64 i).orderKey ≤ (ofInt64 j).orderKey := by
  rw [ofInt64, ofInt64, orderKey_ofInt, orderKey_ofInt]
  split <;> split
  · have hle : magnitudeOf j.toInt.natAbs ≤ magnitudeOf i.toInt.natAbs :=
      magnitudeOf_mono (by omega)
    omega
  · omega
  · omega
  · have hle : magnitudeOf i.toInt.natAbs ≤ magnitudeOf j.toInt.natAbs :=
      magnitudeOf_mono (by omega)
    omega

end DocSelect.Binary64
