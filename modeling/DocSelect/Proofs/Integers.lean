import DocSelect.Eval.Calls
import DocSelect.Value.Arithmetic
import Mathlib.Data.Int.Order.Basic
import Mathlib.Order.Basic

/-!
# Arithmetic of integers

What the operations on integers ought to give, said without computing it: a quotient and a remainder
go together, and the remainder is small and has no other sign than the dividend. They give just that
wherever it fits into 64 bits. One remainder is missed: that of the least integer by minus one is
zero, but it is taken to overflow because its quotient does.
-/
namespace DocSelect

variable {x y : Int} {a b : Int64} {op : Arithmetic}

-- ---------------------------------------------------------------------------
-- Division with remainder
-- ---------------------------------------------------------------------------

structure Truncated (x y q r : Int) : Prop where
  eq : r + y * q = x
  small : r.natAbs < y.natAbs
  sign : 0 ≤ x ∧ 0 ≤ r ∨ x ≤ 0 ∧ r ≤ 0

theorem Truncated.divisor_ne {q r : Int} (h : Truncated x y q r) : y ≠ 0 := by
  rintro rfl
  exact absurd h.small (Nat.not_lt_zero _)

theorem truncated_iff {q r : Int} :
    Truncated x y q r ↔ y ≠ 0 ∧ x.tdiv y = q ∧ x.tmod y = r := by
  constructor
  · intro h
    have hsmall := h.small
    refine ⟨h.divisor_ne, ?_⟩
    rcases h.sign with ⟨hx, hr⟩ | ⟨hx, hr⟩
    · exact (Int.tdiv_tmod_unique hx h.divisor_ne).2 ⟨h.eq, hr, by omega⟩
    · exact (Int.tdiv_tmod_unique' hx h.divisor_ne).2 ⟨h.eq, by omega, hr⟩
  · rintro ⟨hy, rfl, rfl⟩
    refine ⟨Int.tmod_add_mul_tdiv x y, ?_, ?_⟩
    · rw [Int.natAbs_tmod]
      exact Nat.mod_lt _ (Int.natAbs_pos.2 hy)
    · rcases Int.le_total 0 x with hx | hx
      · exact .inl ⟨hx, Int.tmod_nonneg y hx⟩
      · have hneg := Int.tmod_nonneg y (Int.neg_nonneg_of_nonpos hx)
        rw [Int.neg_tmod] at hneg
        exact .inr ⟨hx, by omega⟩

theorem fitsInt64_tmod (hx : fitsInt64 x = true) (hy : y ≠ 0) : fitsInt64 (x.tmod y) = true := by
  have hdivision : Truncated x y (x.tdiv y) (x.tmod y) := truncated_iff.2 ⟨hy, rfl, rfl⟩
  have hsign := hdivision.sign
  have hle : (x.tmod y).natAbs ≤ x.natAbs := by
    rw [Int.natAbs_tmod]
    exact Nat.mod_le _ _
  rw [fitsInt64_iff] at hx ⊢
  omega

theorem fitsInt64_tdiv_iff (hb : b.toInt ≠ 0) :
    fitsInt64 (a.toInt.tdiv b.toInt) = true ↔ ¬ (a = Int64.minValue ∧ b = -1) := by
  constructor
  · rintro h ⟨rfl, rfl⟩
    exact absurd h (by decide)
  · intro h
    by_contra hno
    have ha := fitsInt64_iff.1 (fitsInt64_toInt a)
    have hle := Int.natAbs_tdiv_le_natAbs a.toInt b.toInt
    obtain ⟨hdiv, hsmall, -⟩ := truncated_iff.2 ⟨hb, rfl, rfl⟩
    rw [fitsInt64_iff] at hno
    have hq : a.toInt.tdiv b.toInt = 9223372036854775808 := by omega
    rw [hq] at hdiv
    -- so large a quotient has a divisor of magnitude one
    have hdivisor : b.toInt = (-1 : Int64).toInt := by
      change _ = -1
      omega
    have hdividend : a.toInt = Int64.minValue.toInt := by
      rw [hdivisor] at hdiv hsmall
      change _ + -1 * _ = _ at hdiv
      change _ < 1 at hsmall
      change _ = -9223372036854775808
      omega
    exact h ⟨Int64.toInt_inj.1 hdividend, Int64.toInt_inj.1 hdivisor⟩

-- ---------------------------------------------------------------------------
-- Operations
-- ---------------------------------------------------------------------------

namespace Arithmetic

def Gives (op : Arithmetic) (x y z : Int) : Prop :=
  match op with
  | add => z = x + y
  | subtract => z + y = x
  | multiply => z = x * y
  | divide => ∃ r, Truncated x y z r
  | modulo => ∃ q, Truncated x y q z

def Undefined (op : Arithmetic) (y : Int) : Prop := op.divides = true ∧ y = 0

/-- An operation that is taken to overflow though its result is zero. -/
def Missed (op : Arithmetic) (a b : Int64) : Prop := op = modulo ∧ a = Int64.minValue ∧ b = -1

theorem gives_iff {z : Int} : op.Gives x y z ↔ ¬ op.Undefined y ∧ op.exact x y = z := by
  cases op with
  | add | multiply => simp [Gives, Undefined, exact, divides, eq_comm]
  | subtract =>
    simp only [Gives, Undefined, exact, divides, Bool.false_eq_true, false_and,
      not_false_iff, true_and]
    omega
  | divide | modulo => simp [Gives, Undefined, exact, divides, truncated_iff]

theorem Missed.gives_zero (h : op.Missed a b) : op.Gives a.toInt b.toInt 0 := by
  obtain ⟨rfl, rfl, rfl⟩ := h
  exact gives_iff.2 ⟨by simp [Undefined], rfl⟩

theorem overflows_iff (hb : ¬ op.Undefined b.toInt) : op.overflows a.toInt b.toInt = true ↔
    fitsInt64 (op.exact a.toInt b.toInt) = false ∨ op.Missed a b := by
  cases op with
  | modulo =>
    have hne : b.toInt ≠ 0 := fun hzero => hb ⟨rfl, hzero⟩
    have hfits := fitsInt64_tmod (fitsInt64_toInt a) hne
    simp only [overflows, exact, Missed, hfits, Bool.not_eq_true', true_and, reduceCtorEq, false_or]
    rw [← Bool.not_eq_true, fitsInt64_tdiv_iff hne, not_not]
  | _ => simp [overflows, Missed]

theorem ints_eq (op : Arithmetic) (a b : Int64) :
    op.Undefined b.toInt ∧ op.ints a b = .error .divisionByZero ∨
    ¬ op.Undefined b.toInt ∧ (fitsInt64 (op.exact a.toInt b.toInt) = false ∨ op.Missed a b) ∧
      op.ints a b = .error .integerOverflow ∨
    ¬ op.Undefined b.toInt ∧
      ¬ (fitsInt64 (op.exact a.toInt b.toInt) = false ∨ op.Missed a b) ∧
      op.ints a b = .ok (Int64.ofInt (op.exact a.toInt b.toInt)) := by
  have hguard : (op.divides && b == 0) = true ↔ op.Undefined b.toInt := by
    simp [Undefined, ← Int64.toInt_inj]
  unfold ints
  split
  · exact .inl ⟨hguard.1 ‹_›, rfl⟩
  · have hdefined : ¬ op.Undefined b.toInt := fun h => ‹¬ _› (hguard.2 h)
    rw [← overflows_iff hdefined]
    split
    · exact .inr (.inl ⟨hdefined, ‹_›, rfl⟩)
    · exact .inr (.inr ⟨hdefined, ‹_›, rfl⟩)

end Arithmetic

theorem Store.arithmetic?_int {s : Store} {r r' : Ref} (ha : s.data r = .int a)
    (hb : s.data r' = .int b) (op : Arithmetic) :
    s.arithmetic? op r r' = (op.ints a b).map Scalar.int := by
  simp only [arithmetic?, ha, hb, Data.int, Arithmetic.scalars]
  cases op.ints a b <;> rfl

/-- An operation on two integers fails for a zero divisor, and otherwise gives the exact result if
it fits into 64 bits and overflows if it does not. Only the remainder of the least integer by minus
one is taken to overflow though it is zero. -/
theorem integer_arithmetic (op : Arithmetic) {s : Store} {r r' : Ref} (ha : s.data r = .int a)
    (hb : s.data r' = .int b) :
    (¬ (op.divides = true ∧ b = 0) → ∃! z, op.Gives a.toInt b.toInt z) ∧
    (s.arithmetic? op r r' = .error .divisionByZero ↔ op.divides = true ∧ b = 0) ∧
    (∀ c, s.arithmetic? op r r' = .ok (.int c) ↔
      op.Gives a.toInt b.toInt c.toInt ∧ ¬ op.Missed a b) ∧
    (s.arithmetic? op r r' = .error .integerOverflow ↔
      (∃ z, op.Gives a.toInt b.toInt z ∧ fitsInt64 z = false) ∨ op.Missed a b) ∧
    (op.Missed a b → op.Gives a.toInt b.toInt 0 ∧ fitsInt64 0 = true) := by
  have hzero : op.divides = true ∧ b = 0 ↔ op.Undefined b.toInt := by
    simp [Arithmetic.Undefined, ← Int64.toInt_inj]
  have hmissed (h : op.Missed a b) : op.Gives a.toInt b.toInt 0 ∧ fitsInt64 0 = true :=
    ⟨h.gives_zero, by decide⟩
  rw [Store.arithmetic?_int ha hb, hzero]
  refine ⟨fun hdefined => ⟨_, Arithmetic.gives_iff.2 ⟨hdefined, rfl⟩,
    fun z hz => (Arithmetic.gives_iff.1 hz).2.symm⟩, ?_⟩
  rcases op.ints_eq a b with ⟨hundefined, hints⟩ | ⟨hdefined, hover, hints⟩ |
    ⟨hdefined, hfits, hints⟩
  · have hno : ¬ op.Missed a b := fun h => (Arithmetic.gives_iff.1 h.gives_zero).1 hundefined
    simp [hints, hundefined, hno, Arithmetic.gives_iff, Except.map]
  · refine ⟨by simp [hints, hdefined, Except.map],
      fun c => iff_of_false (by simp [hints, Except.map]) ?_,
      iff_of_true (by simp [hints, Except.map]) ?_, hmissed⟩
    · rintro ⟨hc, hno⟩
      have hfits : fitsInt64 (op.exact a.toInt b.toInt) = true := by
        rw [(Arithmetic.gives_iff.1 hc).2]
        exact fitsInt64_toInt c
      exact hno (hover.resolve_left (by simp [hfits]))
    · exact hover.imp_left fun h => ⟨_, Arithmetic.gives_iff.2 ⟨hdefined, rfl⟩, h⟩
  · rw [not_or, Bool.not_eq_false] at hfits
    refine ⟨by simp [hints, hdefined, Except.map], fun c => ?_,
      iff_of_false (by simp [hints, Except.map]) ?_, hmissed⟩
    · simp only [hints, Except.map, Except.ok.injEq, Scalar.int.injEq,
        Arithmetic.gives_iff, hdefined,
        hfits.2, not_false_iff, true_and, and_true, ← Int64.toInt_inj,
          toInt_ofInt_of_fits hfits.1]
    · rintro (⟨z, hz, hno⟩ | hno)
      · rw [← (Arithmetic.gives_iff.1 hz).2, hfits.1] at hno
        cases hno
      · exact hfits.2 hno

/-- Nine by minus two leaves one. -/
theorem integer_arithmetic_remainder :
    let s := (Session.start (.slice [.int 9, .int (-2)]) []).2.store
    s.data ⟨0⟩ = .int 9 ∧ s.data ⟨1⟩ = .int (-2) ∧
    s.arithmetic? .modulo ⟨0⟩ ⟨1⟩ = .ok (.int 1) := by
  intro s
  have hleft : s.data ⟨0⟩ = .int 9 := rfl
  have hright : s.data ⟨1⟩ = .int (-2) := rfl
  obtain ⟨-, -, hresult, -⟩ := integer_arithmetic .modulo hleft hright
  refine ⟨hleft, hright, (hresult 1).2 ⟨⟨-4, by decide, by decide, by decide⟩, ?_⟩⟩
  rintro ⟨-, hleast, -⟩
  exact absurd hleast (by decide)

/-- The remainder of the least integer by minus one is zero, and zero is what it gives by the
floating point number minus one, but as integers they are taken to overflow. -/
theorem least_integer_no_remainder :
    let s :=
      (Session.start (.slice [.int Int64.minValue, .int (-1), .float ⟨0xBFF0000000000000⟩])
        []).2.store
    Arithmetic.modulo.Gives Int64.minValue.toInt (-1) 0 ∧ fitsInt64 0 = true ∧
      s.data ⟨0⟩ = .int Int64.minValue ∧ s.data ⟨1⟩ = .int (-1) ∧
      s.arithmetic? .modulo ⟨0⟩ ⟨1⟩ = .error .integerOverflow ∧
      s.arithmetic? .modulo ⟨0⟩ ⟨2⟩ = .ok (.float ⟨0⟩) := by
  refine ⟨⟨9223372036854775808, by decide, by decide, by decide⟩, by decide, rfl, rfl, ?_⟩
  decide +kernel

end DocSelect
