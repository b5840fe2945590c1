import DocSelect.Value.Order
import Mathlib.Data.List.Forall2

/-!
# Comparing one thing after the other

An order of values compares parts, and the first difference decides. Nothing is known of the parts
but how those at hand compare with each other, so what makes an order is said here of three
comparisons, and not of a whole relation: that they fit three things in a row. Where the comparisons
of the parts do so, and are turned around with their sides, so do those of the lists.
-/
namespace DocSelect

variable {α : Type} {cmp : α → α → Ordering}

/-- How `a` and `b`, `b` and `c`, and `a` and `c` compare in an order: an equal one can take the
other's place, and two differences of the same kind add up to one. -/
structure Coherent (ab bc ac : Ordering) : Prop where
  left : ab = .eq → ac = bc
  right : bc = .eq → ac = ab
  both : ab = bc → ac = ab

namespace Coherent

variable {ab bc ac ab' bc' ac' : Ordering}

theorem not_gt (h : Coherent ab bc ac) (hab : ab ≠ .gt) (hbc : bc ≠ .gt) : ac ≠ .gt := by
  have hleft := h.left
  have hright := h.right
  have hboth := h.both
  cases ab <;> cases bc <;> simp_all

theorem of_cmp [Std.TransCmp cmp] (a b c : α) : Coherent (cmp a b) (cmp b c) (cmp a c) where
  left h := Std.TransCmp.congr_left h
  right h := (Std.TransCmp.congr_right h).symm
  both h := by
    cases hab : cmp a b with
    | lt => exact Std.TransCmp.lt_trans hab (h.symm.trans hab)
    | eq => exact (Std.TransCmp.congr_left hab).trans (h.symm.trans hab)
    | gt => exact Std.TransCmp.gt_trans hab (h.symm.trans hab)

theorem of_keys {β : Type} [Ord β] [Std.TransOrd β] (a b c : β) :
    Coherent (compare a b) (compare b c) (compare a c) := of_cmp a b c

theorem lex (h : Coherent ab bc ac) (h' : ab = .eq → bc = .eq → Coherent ab' bc' ac') :
    Coherent (ab.then ab') (bc.then bc') (ac.then ac') := by
  obtain ⟨hleft, hright, hboth⟩ := h
  by_cases heq : ab = .eq ∧ bc = .eq
  · obtain ⟨rfl, rfl⟩ := heq
    cases hleft rfl
    exact h' rfl rfl
  · constructor <;> cases ab <;> cases bc <;> cases ac <;> simp_all [Ordering.then]

theorem same_left (o : Ordering) : Coherent .eq o o :=
  ⟨fun _ => rfl, fun h => h, fun h => h.symm⟩

theorem same_right (o : Ordering) : Coherent o .eq o := ⟨fun h => h, fun _ => rfl, fun _ => rfl⟩

theorem same_ends (o : Ordering) : Coherent o o.swap .eq := by
  cases o <;> exact ⟨by simp, by simp, by simp⟩

theorem opposite {o : Ordering} (h : o ≠ .eq) (p : Ordering) : Coherent o o.swap p := by
  cases o
  case eq => exact absurd rfl h
  all_goals exact ⟨by simp, by simp, by simp⟩

theorem first {o : Ordering} (h : o ≠ .eq) (p : Ordering) : Coherent o p o :=
  ⟨fun heq => absurd heq h, fun _ => rfl, fun _ => rfl⟩

theorem last {o : Ordering} (h : o ≠ .eq) (p : Ordering) : Coherent p o o :=
  ⟨fun _ => rfl, fun heq => absurd heq h, fun heq => heq.symm⟩

end Coherent

-- ---------------------------------------------------------------------------
-- Lists
-- ---------------------------------------------------------------------------

theorem compareLex_swap {xs ys : List α}
    (h : ∀ x ∈ xs, ∀ y ∈ ys, cmp y x = (cmp x y).swap) :
    List.compareLex cmp ys xs = (List.compareLex cmp xs ys).swap := by
  induction xs generalizing ys with
  | nil => cases ys <;> rfl
  | cons x xs ih =>
    cases ys with
    | nil => rfl
    | cons y ys =>
      rw [List.compareLex_cons_cons, List.compareLex_cons_cons, Ordering.swap_then,
        h x List.mem_cons_self y List.mem_cons_self,
        ih fun x hx y hy => h x (List.mem_cons_of_mem _ hx) y (List.mem_cons_of_mem _ hy)]

/-- Lists are equal if one function tells no difference between them and only equal elements are the
same to it. -/
theorem compareLex_eq_of_map_eq {β : Type} {f : α → β} {xs ys : List α}
    (heq : xs.map f = ys.map f) (h : ∀ x ∈ xs, ∀ y ∈ ys, f x = f y → cmp x y = .eq) :
    List.compareLex cmp xs ys = .eq := by
  induction xs generalizing ys with
  | nil =>
    cases ys with
    | nil => rfl
    | cons => cases heq
  | cons x xs ih =>
    cases ys with
    | nil => cases heq
    | cons y ys =>
      obtain ⟨hfirst, hrest⟩ := List.cons.inj heq
      rw [List.compareLex_cons_cons, h x List.mem_cons_self y List.mem_cons_self hfirst]
      exact ih hrest fun x hx y hy => h x (List.mem_cons_of_mem _ hx) y (List.mem_cons_of_mem _ hy)

/-- Lists are equal just if one function tells no difference between them, where elements are equal
just if it tells none. -/
theorem compareLex_eq_iff {β : Type} {f : α → β} {xs ys : List α}
    (h : ∀ x ∈ xs, ∀ y ∈ ys, cmp x y = .eq ↔ f x = f y) :
    List.compareLex cmp xs ys = .eq ↔ xs.map f = ys.map f := by
  refine ⟨fun heq => ?_, fun heq => compareLex_eq_of_map_eq heq fun x hx y hy =>
    (h x hx y hy).2⟩
  induction xs generalizing ys with
  | nil =>
    cases ys with
    | nil => rfl
    | cons => cases heq
  | cons x xs ih =>
    cases ys with
    | nil => cases heq
    | cons y ys =>
      rw [List.compareLex_cons_cons, Ordering.then_eq_eq] at heq
      obtain ⟨hfirst, hrest⟩ := heq
      exact congrArg₂ List.cons ((h x List.mem_cons_self y List.mem_cons_self).1 hfirst)
        (ih (fun x hx y hy => h x (List.mem_cons_of_mem _ hx) y (List.mem_cons_of_mem _ hy)) hrest)

/-- Lists of which functions tell the same compare the same, if elements of which they tell the same
do. -/
theorem compareLex_congr {β γ : Type} {cmp' : β → β → Ordering} {f : α → γ}
    {g : β → γ} {xs ys : List α} {xs' ys' : List β} (hxs : xs.map f = xs'.map g)
    (hys : ys.map f = ys'.map g)
    (h : ∀ x ∈ xs, ∀ y ∈ ys, ∀ x' ∈ xs', ∀ y' ∈ ys', f x = g x' → f y = g y' →
      cmp x y = cmp' x' y') : List.compareLex cmp xs ys = List.compareLex cmp' xs' ys' := by
  induction xs generalizing ys xs' ys' with
  | nil =>
    cases xs' with
    | cons => cases hxs
    | nil =>
      cases ys <;> cases ys' <;> first | rfl | cases hys
  | cons x xs ih =>
    cases xs' with
    | nil => cases hxs
    | cons x' xs' =>
      obtain ⟨hx, hxs⟩ := List.cons.inj hxs
      cases ys with
      | nil =>
        cases ys' with
        | nil => rfl
        | cons => cases hys
      | cons y ys =>
        cases ys' with
        | nil => cases hys
        | cons y' ys' =>
          obtain ⟨hy, hys⟩ := List.cons.inj hys
          rw [List.compareLex_cons_cons, List.compareLex_cons_cons,
            h x List.mem_cons_self y List.mem_cons_self x' List.mem_cons_self y'
            List.mem_cons_self hx hy,
            ih hxs hys fun a ha b hb a' ha' b' hb' => h a (List.mem_cons_of_mem _ ha) b
              (List.mem_cons_of_mem _ hb) a' (List.mem_cons_of_mem _ ha') b'
                (List.mem_cons_of_mem _ hb')]

theorem compareLex_coherent {xs ys zs : List α}
    (h : ∀ x ∈ xs, ∀ y ∈ ys, ∀ z ∈ zs, Coherent (cmp x y) (cmp y z) (cmp x z)) :
    Coherent (List.compareLex cmp xs ys) (List.compareLex cmp ys zs)
      (List.compareLex cmp xs zs) := by
  induction xs generalizing ys zs with
  | nil =>
    rcases ys with _ | ⟨y, ys⟩
    · exact .same_left _
    · rcases zs with _ | ⟨z, zs⟩
      · exact .same_ends .lt
      · exact .first (o := .lt) (by decide) _
  | cons x xs ih =>
    rcases ys with _ | ⟨y, ys⟩
    · rcases zs with _ | ⟨z, zs⟩
      · exact .same_right .gt
      · exact .opposite (o := .gt) (by decide) _
    · rcases zs with _ | ⟨z, zs⟩
      · exact .last (o := .gt) (by decide) _
      · simp only [List.compareLex_cons_cons]
        refine (h x List.mem_cons_self y List.mem_cons_self z List.mem_cons_self).lex fun _ _ => ?_
        exact ih fun x hx y hy z hz =>
          h x (List.mem_cons_of_mem _ hx) y (List.mem_cons_of_mem _ hy) z
          (List.mem_cons_of_mem _ hz)

end DocSelect
