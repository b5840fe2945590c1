import DocSelect.Proofs.Order.Lexicographic
import DocSelect.Proofs.Order.Rounding

/-!
# The order of scalars

Two integers are compared exactly, an integer and a floating point number after rounding. Where
integers fall together in rounding, a number between them is equal to both while they differ, and
that is no order. Where no number at hand is equal to two different integers at hand, the
comparisons of those fit together.
-/
namespace DocSelect

/-- No floating point number among these scalars is equal to two different integers among them. -/
def Discernible (P : Scalar → Prop) : Prop :=
  ∀ (i j : Int64) (x : Binary64), P (.int i) → P (.int j) → P (.float x) →
    Scalar.compare (.int i) (.float x) = .eq → Scalar.compare (.int j) (.float x) = .eq → i = j

theorem Discernible.mono {P Q : Scalar → Prop} (h : Discernible Q) (hPQ : ∀ a, P a → Q a) :
    Discernible P :=
  fun i j x hi hj hx => h i j x (hPQ _ hi) (hPQ _ hj) (hPQ _ hx)

namespace Scalar

theorem rank_lt (a : Scalar) : a.rank < 4 := by cases a <;> simp [rank]

theorem compareText_eq (a b : String) : compareText a b = Ord.compare a b := rfl

theorem compare_swap (a b : Scalar) : b.compare a = (a.compare b).swap := by
  cases a <;> cases b <;> simp only [compare, Binary64.totalCompare, compareText_eq] <;>
    exact Std.OrientedOrd.eq_swap

theorem compare_self (a : Scalar) : a.compare a = .eq := by
  cases a <;> simp only [compare, Binary64.totalCompare, compareText_eq] <;>
    exact Std.ReflOrd.compare_self

theorem compare_of_rank_ne {a b : Scalar} (h : a.rank ≠ b.rank) :
    a.compare b = Ord.compare a.rank b.rank := by
  cases a <;> cases b <;> first | rfl | exact absurd rfl h

theorem compare_int_cases (i j : Int64) :
    compare (.int i) (.int j) = compare (.float (.ofInt64 i)) (.float (.ofInt64 j)) ∨
      (Binary64.ofInt64 i).orderKey = (Binary64.ofInt64 j).orderKey := by
  show Ord.compare i.toInt j.toInt =
    Ord.compare (Binary64.ofInt64 i).orderKey (Binary64.ofInt64 j).orderKey ∨ _
  rcases Int.lt_trichotomy i.toInt j.toInt with h | h | h
  · have hle := Binary64.orderKey_ofInt64_mono (Int.le_of_lt h)
    rcases Int.lt_or_eq_of_le hle with hlt | heq
    · exact .inl ((compare_lt_iff_lt.2 h).trans (compare_lt_iff_lt.2 hlt).symm)
    · exact .inr heq
  · exact .inr (congrArg (fun k => (Binary64.ofInt64 k).orderKey) (Int64.toInt_inj.1 h))
  · have hle := Binary64.orderKey_ofInt64_mono (Int.le_of_lt h)
    rcases Int.lt_or_eq_of_le hle with hlt | heq
    · exact .inl ((compare_gt_iff_gt.2 h).trans (compare_gt_iff_gt.2 hlt).symm)
    · exact .inr heq.symm

-- ---------------------------------------------------------------------------
-- Two integers and a number
-- ---------------------------------------------------------------------------

section
variable {i j : Int64} {x : Binary64}
  (h : compare (.int i) (.float x) = .eq → compare (.int j) (.float x) = .eq → i = j)
include h

/-- Integers compare like the numbers nearest to them, or both differ from the number, in the same
way. -/
theorem compare_ints :
    compare (.int i) (.int j) = compare (.float (.ofInt64 i)) (.float (.ofInt64 j)) ∨
      compare (.int i) (.float x) ≠ .eq ∧
        compare (.int j) (.float x) = compare (.int i) (.float x) := by
  rcases compare_int_cases i j with heq | hkey
  · exact .inl heq
  · have hsame : compare (.int j) (.float x) = compare (.int i) (.float x) :=
      congrArg (fun k : Int => Ord.compare k x.orderKey) hkey.symm
    by_cases heq : compare (.int i) (.float x) = .eq
    · cases h heq (hsame.trans heq)
      exact .inl ((compare_self _).trans (compare_self _).symm)
    · exact .inr ⟨heq, hsame⟩

theorem coherent_int_int_float :
    Coherent (compare (.int i) (.int j)) (compare (.int j) (.float x))
      (compare (.int i) (.float x)) := by
  rcases compare_ints h with heq | ⟨hne, hsame⟩
  · rw [heq]
    exact .of_keys (Binary64.ofInt64 i).orderKey (Binary64.ofInt64 j).orderKey x.orderKey
  · rw [hsame]
    exact .last hne _

theorem coherent_int_float_int :
    Coherent (compare (.int i) (.float x)) (compare (.float x) (.int j))
      (compare (.int i) (.int j)) := by
  rcases compare_ints h with heq | ⟨hne, hsame⟩
  · rw [heq]
    exact .of_keys (Binary64.ofInt64 i).orderKey x.orderKey (Binary64.ofInt64 j).orderKey
  · rw [compare_swap (.int j) (.float x), hsame]
    exact .opposite hne _

theorem coherent_float_int_int :
    Coherent (compare (.float x) (.int i)) (compare (.int i) (.int j))
      (compare (.float x) (.int j)) := by
  rcases compare_ints h with heq | ⟨hne, hsame⟩
  · rw [heq]
    exact .of_keys x.orderKey (Binary64.ofInt64 i).orderKey (Binary64.ofInt64 j).orderKey
  · rw [compare_swap (.int i) (.float x), compare_swap (.int j) (.float x), hsame]
    exact .first (fun heq => hne (Ordering.swap_inj.1 heq)) _

end

/-- Scalars of one rank compare as in an order, if the numbers among them can be told apart. -/
theorem coherent {a b c : Scalar} (hab : a.rank = b.rank) (hbc : b.rank = c.rank)
    (h : Discernible fun d => d = a ∨ d = b ∨ d = c) :
    Coherent (a.compare b) (b.compare c) (a.compare c) := by
  cases a <;> cases b <;> cases hab <;> cases c <;> cases hbc
  case null.null.refl.null.refl => exact .same_left _
  case bool.bool.refl.bool.refl p q r => exact .of_keys p.toNat q.toNat r.toNat
  case string.string.refl.string.refl p q r => exact .of_keys p q r
  case int.int.refl.int.refl i j k => exact .of_keys i.toInt j.toInt k.toInt
  case int.int.refl.float.refl i j x =>
    exact coherent_int_int_float (h i j x (by simp) (by simp) (by simp))
  case int.float.refl.int.refl i x j =>
    exact coherent_int_float_int (h i j x (by simp) (by simp) (by simp))
  case float.int.refl.int.refl x i j =>
    exact coherent_float_int_int (h i j x (by simp) (by simp) (by simp))
  case int.float.refl.float.refl i x y =>
    exact .of_keys (Binary64.ofInt64 i).orderKey x.orderKey y.orderKey
  case float.int.refl.float.refl x i y =>
    exact .of_keys x.orderKey (Binary64.ofInt64 i).orderKey y.orderKey
  case float.float.refl.int.refl x y i =>
    exact .of_keys x.orderKey y.orderKey (Binary64.ofInt64 i).orderKey
  case float.float.refl.float.refl x y z => exact .of_keys x.orderKey y.orderKey z.orderKey

end Scalar

end DocSelect
