import DocSelect.Eval.Calls
import DocSelect.Proofs.Copying
import DocSelect.Proofs.Order.Level

/-!
# The order of values

Values without cycles compare to every depth. Those of one content are equal, and turning the sides
around turns the result around. Values that are in order one after the other are so from end to end
as long as the numbers in them can be told apart. Without that it is not so, since integers are
compared exactly with each other but rounded with floating point numbers.
-/
namespace DocSelect

variable {s : Store} {a b c r : Ref}

def Store.HasScalar (s : Store) (r : Ref) (x : Scalar) : Prop :=
  ∃ c, Relation.ReflTransGen s.Part c r ∧ s.data c = .scalar x

theorem Store.HasScalar.of_part {x : Scalar} (h : s.HasScalar c x) (hc : s.Part c r) :
    s.HasScalar r x :=
  let ⟨d, hd, hx⟩ := h
  ⟨d, hd.tail hc, hx⟩

theorem Store.compare_self (s : Store) (r : Ref) : s.compare r r = .eq := by
  rw [Store.compare]
  cases s.tree r <;> exact if_pos rfl

namespace Store.Grounded

theorem compare_swap (ha : s.Grounded a) (hb : s.Grounded b) :
    s.compare b a = (s.compare a b).swap := by
  induction ha generalizing b with
  | intro a hparts ih =>
    rw [hb.compare_eq ⟨a, hparts⟩, Grounded.compare_eq ⟨a, hparts⟩ hb]
    by_cases heq : a = b
    · rw [if_pos heq, if_pos heq.symm]
      rfl
    · rw [if_neg heq, if_neg (Ne.symm heq)]
      exact Data.compareWith_swap fun c hc d hd => ih c hc (hb.part hd)

theorem compare_of_content_eq (ha : s.Grounded a) (hb : s.Grounded b)
    (h : s.content a = s.content b) : s.compare a b = .eq := by
  induction ha generalizing b with
  | intro a hparts ih =>
    have ha : s.Grounded a := ⟨a, hparts⟩
    rw [ha.content_eq, hb.content_eq] at h
    rw [ha.compare_eq hb]
    split
    · rfl
    · exact Data.compareWith_of_content_eq h fun c hc d hd => ih c hc (hb.part hd)

/-- Comparisons of three nodes fit together if the numbers in them can be told apart. -/
theorem compare_coherent (ha : s.Grounded a) (hb : s.Grounded b) (hc : s.Grounded c)
    (h : Discernible fun x => s.HasScalar a x ∨ s.HasScalar b x ∨ s.HasScalar c x) :
    Coherent (s.compare a b) (s.compare b c) (s.compare a c) := by
  induction ha generalizing b c with
  | intro a hparts ih =>
    have ha : s.Grounded a := ⟨a, hparts⟩
    by_cases hab : a = b
    · rw [hab, s.compare_self]
      exact .same_left _
    by_cases hbc : b = c
    · rw [hbc, s.compare_self]
      exact .same_right _
    by_cases hac : a = c
    · rw [← hac, s.compare_self, ha.compare_swap hb]
      exact .same_ends _
    rw [ha.compare_eq hb, hb.compare_eq hc, ha.compare_eq hc, if_neg hab, if_neg hbc, if_neg hac]
    refine Data.compareWith_coherent (h.mono fun x hx => ?_) fun p hp q hq r hr => ?_
    · exact hx.imp (fun h => ⟨a, .refl, h⟩)
        (.imp (fun h => ⟨b, .refl, h⟩) fun h => ⟨c, .refl, h⟩)
    · refine ih p hp (hb.part hq) (hc.part hr) (h.mono fun x hx => ?_)
      exact hx.imp (·.of_part hp) (.imp (·.of_part hq) (·.of_part hr))

end Store.Grounded

/-- Values without cycles are compared as in an order: those of one content are equal, the other way
around the result is the opposite one, and what is in order stays in order from end to end where the
numbers can be told apart. -/
theorem compare_preorder (ha : s.Grounded a) (hb : s.Grounded b) (hc : s.Grounded c) :
    s.compare a a = .eq ∧ (s.content a = s.content b → s.compare a b = .eq) ∧
      s.compare b a = (s.compare a b).swap ∧
      ((Discernible fun x => s.HasScalar a x ∨ s.HasScalar b x ∨ s.HasScalar c x) →
        s.compare a b ≠ .gt → s.compare b c ≠ .gt → s.compare a c ≠ .gt) :=
  ⟨s.compare_self a, ha.compare_of_content_eq hb, ha.compare_swap hb,
    fun h hab hbc => (ha.compare_coherent hb hc h).not_gt hab hbc⟩

theorem Store.HasScalar.eq_of_data {x y : Scalar} (h : s.HasScalar r x)
    (hr : s.data r = .scalar y) : x = y := by
  obtain ⟨c, hc, hx⟩ := h
  rcases Relation.ReflTransGen.cases_tail hc with rfl | ⟨d, -, hd⟩
  · rw [hr] at hx
    cases hx
    rfl
  · rw [Store.Part, hr] at hd
    exact absurd hd List.not_mem_nil

/-- One, one and a half, and two. -/
theorem compare_preorder_numbers :
    let s :=
      (Session.start (.slice [.int 1, .scalar (.float ⟨0x3FF8000000000000⟩), .int 2])
        []).2.store
    s.Grounded ⟨0⟩ ∧ s.Grounded ⟨1⟩ ∧ s.Grounded ⟨2⟩ ∧
      (Discernible fun x =>
        s.HasScalar ⟨0⟩ x ∨ s.HasScalar ⟨1⟩ x ∨ s.HasScalar ⟨2⟩ x) ∧
      s.compare ⟨0⟩ ⟨1⟩ = .lt ∧ s.compare ⟨1⟩ ⟨2⟩ = .lt ∧ s.compare ⟨0⟩ ⟨2⟩ ≠ .gt := by
  intro s
  have hleaf {r : Ref} {x : Scalar} (hr : s.data r = .scalar x) : s.Grounded r :=
    (Store.Holds.scalar hr).grounded
  have hscalars {x : Scalar} (hx : s.HasScalar ⟨0⟩ x ∨ s.HasScalar ⟨1⟩ x ∨
      s.HasScalar ⟨2⟩ x) : x = .int 1 ∨ x = .float ⟨0x3FF8000000000000⟩ ∨ x = .int 2 :=
    hx.imp (·.eq_of_data rfl) (.imp (·.eq_of_data rfl) (·.eq_of_data rfl))
  have h : Discernible fun x => s.HasScalar ⟨0⟩ x ∨ s.HasScalar ⟨1⟩ x ∨
      s.HasScalar ⟨2⟩ x := by
    intro i j x hi _ hx heq
    -- neither of the integers is equal to the number
    rcases hscalars hx with h | h | h <;> cases h
    rcases hscalars hi with h | h | h <;> cases h <;> exact absurd heq (by decide)
  have hcompare : s.compare ⟨0⟩ ⟨1⟩ = .lt ∧ s.compare ⟨1⟩ ⟨2⟩ = .lt := by
    decide +kernel
  have horder := (compare_preorder (hleaf (r := ⟨0⟩) rfl) (hleaf (r := ⟨1⟩) rfl)
    (hleaf (r := ⟨2⟩) rfl)).2.2.2 h
  refine ⟨hleaf rfl, hleaf rfl, hleaf rfl, h, hcompare.1, hcompare.2, horder ?_ ?_⟩
  · rw [hcompare.1]
    decide
  · rw [hcompare.2]
    decide

/-- Two to the 53rd and its successor are different, and both equal to the floating point number. -/
theorem compare_not_transitive :
    let s :=
      (Session.start (.slice [.int 9007199254740993, .scalar (.float ⟨0x4340000000000000⟩),
        .int 9007199254740992]) []).2.store
    s.compare ⟨0⟩ ⟨1⟩ = .eq ∧ s.compare ⟨1⟩ ⟨2⟩ = .eq ∧
    s.compare ⟨0⟩ ⟨2⟩ = .gt := by
  decide +kernel

-- ---------------------------------------------------------------------------
-- Sorts
-- ---------------------------------------------------------------------------

namespace Sorting

/-- Keys that are in order one after the other are so from end to end. -/
def Transitive (sort : Sorting) : Prop :=
  ∀ a ∈ sort.keys, ∀ b ∈ sort.keys, ∀ c ∈ sort.keys, (sort.store.compare a b).isLE →
    (sort.store.compare b c).isLE → (sort.store.compare a c).isLE

instance : DecidablePred Transitive := fun _ => inferInstanceAs (Decidable (∀ _ ∈ _, _))

/-- The comparison is an order of the keys, which a library's sort asks for. -/
abbrev Ordered (sort : Sorting) : Prop :=
  Std.TransCmp fun a b : { r // r ∈ sort.keys } => sort.store.compare a b

variable {sort : Sorting} (hg : ∀ r, sort.store.Grounded r)
include hg

theorem Transitive.ordered (h : sort.Transitive) : sort.Ordered where
  eq_swap {a b} := (hg b).compare_swap (hg a)
  isLE_trans {a b c} := h a a.2 b b.2 c c.2

/-- Keys are compared transitively where their numbers can be told apart. -/
theorem transitive_of_discernible
    (h : Discernible fun x => ∃ r ∈ sort.keys, sort.store.HasScalar r x) : sort.Transitive := by
  intro a ha b hb c hc hab hbc
  have hcoherent : Coherent (sort.store.compare a b) (sort.store.compare b c)
      (sort.store.compare a c) := by
    refine (hg a).compare_coherent (hg b) (hg c) (h.mono fun x hx => ?_)
    rcases hx with hx | hx | hx
    · exact ⟨a, ha, hx⟩
    · exact ⟨b, hb, hx⟩
    · exact ⟨c, hc, hx⟩
  rw [← Ordering.ne_gt_iff_isLE] at hab hbc ⊢
  exact hcoherent.not_gt hab hbc

end Sorting

end DocSelect
