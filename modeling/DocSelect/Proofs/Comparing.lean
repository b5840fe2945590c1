import DocSelect.Proofs.Equality

/-!
# Comparison operators

The operators for order go by the order of values, and equality is decided on its own. For integers
and for texts both agree, so that of two operands one is less, or both are equal, or one is greater,
and no two of these at once. For floating point numbers the conventions differ. The order puts `-0`
before `0`, which are equal, and it puts a NaN in the same place as itself, although a NaN is equal
to nothing. These are all the operands on which the operators contradict each other; the same NaN
does so only in two different nodes.
-/
namespace DocSelect

-- ---------------------------------------------------------------------------
-- Numbers
-- ---------------------------------------------------------------------------

namespace Binary64

theorem toNat_bits_eq (x : Binary64) :
    x.bits.toNat = (if x.negative then signBit else 0) + x.magnitude := by
  have hbit : signBit = 2 ^ 63 := by decide
  have hlt : x.bits.toNat < 2 ^ 64 := x.bits.toNat_lt
  simp only [negative, magnitude, decide_eq_true_eq, hbit]
  split <;> omega

theorem orderKey_inj {x y : Binary64} : x.orderKey = y.orderKey ↔ x = y := by
  refine ⟨fun h => ?_, fun h => h ▸ rfl⟩
  have hbits : x.bits.toNat = y.bits.toNat := by
    rw [toNat_bits_eq x, toNat_bits_eq y]
    unfold orderKey at h
    split at h <;> split at h <;> simp_all <;> omega
  cases x
  cases y
  exact congrArg mk (UInt64.toNat_inj.1 hbits)

theorem totalCompare_eq_iff {x y : Binary64} : x.totalCompare y = .eq ↔ x = y := by
  rw [totalCompare, Std.LawfulEqCmp.compare_eq_iff_eq, orderKey_inj]

/-- Two zeros of different signs, or the same NaN twice. -/
def Discordant (x y : Binary64) : Prop :=
  x.isZero ∧ y.isZero ∧ x ≠ y ∨ x.isNaN ∧ x = y

theorem isNaN_of_isZero {x : Binary64} (h : x.isZero = true) : x.isNaN = false := by
  rw [isZero, decide_eq_true_eq] at h
  rw [isNaN, h]
  rfl

theorem totalCompare_agrees_iff {x y : Binary64} :
    (x.totalCompare y = .eq ↔ x.equal y = true) ↔ ¬ x.Discordant y := by
  rw [totalCompare_eq_iff]
  by_cases hxy : x = y
  · subst hxy
    cases hnan : x.isNaN <;> simp [equal, Discordant, hnan]
  · cases hx : x.isZero <;> cases hy : y.isZero
    case true.true => simp [equal, Discordant, hxy, hx, hy, isNaN_of_isZero]
    all_goals simp [equal, Discordant, hxy, hx, hy]

theorem magnitudeOf_eq_zero_iff {n : Nat} : magnitudeOf n = 0 ↔ n = 0 := by
  have hinfinity : 0 < infinityMagnitude := by decide
  have hleading : 0 < leadingBit := by decide
  rw [magnitudeOf]
  split
  · simp [*]
  · rename_i hn
    have hmantissa := leadingBit_le_mantissaOf hn
    omega

theorem magnitude_ofInt (i : Int) : (ofInt i).magnitude = magnitudeOf i.natAbs := by
  rw [ofInt, round_one, magnitude_ofMagnitude (magnitudeOf_lt _)]

theorem isNaN_ofInt64 (i : Int64) : (ofInt64 i).isNaN = false := by
  have hle : magnitudeOf i.toInt.natAbs ≤ infinityMagnitude := by
    unfold magnitudeOf
    split
    · exact Nat.zero_le _
    · exact Nat.min_le_right ..
  rw [isNaN, ofInt64, magnitude_ofInt, decide_eq_false_iff_not]
  exact Nat.not_lt.2 hle

theorem isZero_ofInt64 {i : Int64} : (ofInt64 i).isZero = true ↔ i = 0 := by
  rw [isZero, ofInt64, magnitude_ofInt, decide_eq_true_eq, magnitudeOf_eq_zero_iff,
    Int.natAbs_eq_zero]
  exact ⟨fun h => Int64.toInt_inj.1 h, fun h => h ▸ rfl⟩

theorem eq_zero_of_isZero {x : Binary64} (h : x.isZero = true) : x = zero x.negative := by
  rw [isZero, decide_eq_true_eq] at h
  rw [← orderKey_inj, zero, orderKey_ofMagnitude (by decide), orderKey, h]

theorem ofInt64_discordant_iff {i : Int64} {x : Binary64} :
    (ofInt64 i).Discordant x ↔ i = 0 ∧ x = zero true := by
  rw [Discordant, isZero_ofInt64, isNaN_ofInt64]
  constructor
  · rintro (⟨rfl, hzero, hne⟩ | ⟨hnan, -⟩)
    · refine ⟨rfl, ?_⟩
      have hx := eq_zero_of_isZero hzero
      cases hsign : x.negative <;> rw [hsign] at hx
      · exact absurd hx.symm hne
      · exact hx
    · cases hnan
  · rintro ⟨rfl, rfl⟩
    exact .inl (by decide +kernel)

theorem totalCompare_swap (x y : Binary64) : y.totalCompare x = (x.totalCompare y).swap :=
  Std.OrientedOrd.eq_swap

end Binary64

-- ---------------------------------------------------------------------------
-- Scalars
-- ---------------------------------------------------------------------------

namespace Scalar

/-- Two zeros of different signs, of which that of the integers is positive, or the same NaN
twice. -/
def Discordant : Scalar → Scalar → Prop
  | float x, float y => x.Discordant y
  | int i, float x => i = 0 ∧ x = Binary64.zero true
  | float x, int i => i = 0 ∧ x = Binary64.zero true
  | _, _ => False

theorem equal_of_rank_ne {a b : Scalar} (h : a.rank ≠ b.rank) : a.equal b = false := by
  cases a <;> cases b <;> first | rfl | exact absurd rfl h

theorem compare_agrees_of_not_float {a b : Scalar} (ha : ∀ x, a ≠ .float x)
    (hb : ∀ x, b ≠ .float x) : a.compare b = .eq ↔ a.equal b = true :=
  (compare_eq_iff ha hb).trans (equal_iff ha hb).symm

theorem compare_agrees_iff {a b : Scalar} :
    (a.compare b = .eq ↔ a.equal b = true) ↔ ¬ a.Discordant b := by
  by_cases hrank : a.rank = b.rank
  · cases a <;> cases b <;> cases hrank
    case float.float.refl x y => exact Binary64.totalCompare_agrees_iff
    case int.float.refl i x =>
      rw [Discordant, ← Binary64.ofInt64_discordant_iff]
      exact Binary64.totalCompare_agrees_iff
    case float.int.refl x i =>
      rw [Discordant, ← Binary64.ofInt64_discordant_iff,
        ← Binary64.totalCompare_agrees_iff, compare,
        Binary64.totalCompare_swap, Ordering.swap_eq_eq]
      rfl
    all_goals exact iff_of_true (compare_agrees_of_not_float (by simp) (by simp)) id
  · have hdiscordant : ¬ a.Discordant b := by
      cases a <;> cases b <;> first | exact id | exact absurd rfl hrank
    rw [compare_of_rank_ne hrank, equal_of_rank_ne hrank, Std.LawfulEqCmp.compare_eq_iff_eq]
    exact iff_of_true (iff_of_false hrank Bool.false_ne_true) hdiscordant

end Scalar

-- ---------------------------------------------------------------------------
-- Nodes
-- ---------------------------------------------------------------------------

/-- Answers of the operators on a pair of operands that do not contradict each other. -/
@[mk_iff]
structure Concordant (less equal greater lessEqual greaterEqual : Bool) : Prop where
  one : [less, equal, greater].count true = 1
  lessEqual : lessEqual = (less || equal)
  greaterEqual : greaterEqual = (greater || equal)

/-- The answers come from an order and an equality, which have to agree on what is equal. -/
theorem concordant_of_order_iff {o : Ordering} {e : Bool} :
    Concordant (o == .lt) e (o == .gt) (o != .gt) (o != .lt) ↔ (o = .eq ↔ e = true) := by
  rw [concordant_iff]
  cases o <;> cases e <;> decide

namespace Store

variable {s : Store} {a b : Ref}

/-- Two nodes with zeros of different signs, or with the same NaN. -/
def Discordant (s : Store) (a b : Ref) : Prop :=
  a ≠ b ∧ ∃ x y, s.data a = .scalar x ∧ s.data b = .scalar y ∧ x.Discordant y

theorem compare_agrees_iff {x y : Scalar} (ha : s.data a = .scalar x) (hb : s.data b = .scalar y) :
    (s.compare a b = .eq ↔ s.equal a b = true) ↔ ¬ s.Discordant a b := by
  have hdiscordant : s.Discordant a b ↔ a ≠ b ∧ x.Discordant y := by
    simp only [Discordant, ha, hb, Data.scalar.injEq]
    exact and_congr_right' ⟨fun ⟨_, _, hx, hy, h⟩ => hx ▸ hy ▸ h,
      fun h => ⟨x, y, rfl, rfl, h⟩⟩
  have hground := (Holds.scalar ha).grounded
  have hground' := (Holds.scalar hb).grounded
  rw [hground.compare_eq hground', hground.equal_eq hground', ha, hb, hdiscordant]
  by_cases hab : a = b
  · simp [hab]
  · simp [hab, Data.compareWith, Data.equalWith, Scalar.compare_agrees_iff]

def Comparable (s : Store) (a b : Ref) : Prop :=
  (s.kind a).isNumeric = true ∧ (s.kind b).isNumeric = true ∨
  s.kind a = .string ∧ s.kind b = .string

theorem Comparable.scalars (h : s.Comparable a b) :
    (∃ x, s.data a = .scalar x) ∧ ∃ y, s.data b = .scalar y := by
  have hscalar {r : Ref} (hr : (s.kind r).isNumeric = true ∨ s.kind r = .string) :
      ∃ x, s.data r = .scalar x := by
    unfold kind at hr
    cases hd : s.data r with
    | scalar x => exact ⟨x, rfl⟩
    | slice | map =>
      rw [hd] at hr
      rcases hr with hr | hr <;> cases hr
  exact ⟨hscalar (h.imp And.left And.left), hscalar (h.imp And.right And.right)⟩

theorem Comparable.relation?_eq (h : s.Comparable a b) : s.relation? a b = .ok (s.compare a b) := by
  rw [relation?]
  refine if_pos ?_
  rcases h with ⟨ha, hb⟩ | ⟨ha, hb⟩ <;> rw [ha, hb] <;> rfl

end Store

/-- On two numbers and on two texts all operators have an answer. Just one of less, equal and
greater holds, and less or equal and greater or equal follow from these, except for zeros of
different signs and for different nodes with the same NaN: there the answers contradict each
other. -/
theorem comparison_operators {s : Store} {a b : Ref} (h : s.Comparable a b) :
    ∃ less greater lessEqual greaterEqual : Bool,
      (s.less? a b = .ok less ∧ s.greater? a b = .ok greater ∧
        s.lessEqual? a b = .ok lessEqual ∧ s.greaterEqual? a b = .ok greaterEqual) ∧
      (Concordant less (s.equal a b) greater lessEqual greaterEqual ↔ ¬ s.Discordant a b) := by
  obtain ⟨⟨x, hx⟩, ⟨y, hy⟩⟩ := h.scalars
  refine ⟨_, _, _, _, ⟨?_, ?_, ?_, ?_⟩,
    concordant_of_order_iff.trans (Store.compare_agrees_iff hx hy)⟩
  · rw [Store.less?, h.relation?_eq]
    rfl
  · rw [Store.greater?, h.relation?_eq]
    rfl
  · rw [Store.lessEqual?, h.relation?_eq]
    rfl
  · rw [Store.greaterEqual?, h.relation?_eq]
    rfl

/-- One and one and a half. -/
theorem comparison_operators_mixed :
    let s := (Session.start (.slice [.int 1, .scalar (.float ⟨0x3FF8000000000000⟩)]) []).2.store
    s.Comparable ⟨0⟩ ⟨1⟩ ∧ s.less? ⟨0⟩ ⟨1⟩ = .ok true ∧
    Concordant true (s.equal ⟨0⟩ ⟨1⟩) false true false := by
  intro s
  have h : s.Comparable ⟨0⟩ ⟨1⟩ := .inl (by decide +kernel)
  have hconcordant : ¬ s.Discordant ⟨0⟩ ⟨1⟩ := by
    rintro ⟨-, x, y, hx, hy, hdiscordant⟩
    cases hx
    cases hy
    exact absurd hdiscordant.1 (by decide)
  obtain ⟨less, greater, lessEqual, greaterEqual, ⟨hl, hg, hle, hge⟩, hiff⟩ :=
    comparison_operators h
  have hless : s.less? ⟨0⟩ ⟨1⟩ = .ok true := by decide +kernel
  cases hl.symm.trans hless
  cases hg.symm.trans (by decide +kernel : s.greater? ⟨0⟩ ⟨1⟩ = .ok false)
  cases hle.symm.trans (by decide +kernel : s.lessEqual? ⟨0⟩ ⟨1⟩ = .ok true)
  cases hge.symm.trans (by decide +kernel : s.greaterEqual? ⟨0⟩ ⟨1⟩ = .ok false)
  exact ⟨h, hless, hiff.2 hconcordant⟩

/-- The negative zero is less than the integer zero, and equal to it. -/
theorem negative_zero_less_and_equal :
    let s := (Session.start (.slice [.scalar (.float ⟨0x8000000000000000⟩), .int 0]) []).2.store
    s.less? ⟨0⟩ ⟨1⟩ = .ok true ∧ s.equal ⟨0⟩ ⟨1⟩ = true ∧
    s.greaterEqual? ⟨0⟩ ⟨1⟩ = .ok false := by
  decide +kernel

end DocSelect
