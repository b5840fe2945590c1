import DocSelect.Value.Sorting

/-!
# The stable sort

Sorting permutes a list and arranges it, by any transitive relation that agrees with what precedes
what. A map that keeps what precedes what can come before or after it.
-/
namespace DocSelect

variable {α β : Type} {precedes : α → α → Bool} {R : α → α → Prop}

theorem perm_insertSorted (x : α) (ys : List α) :
    (insertSorted precedes x ys).Perm (x :: ys) := by
  induction ys with
  | nil => exact .refl _
  | cons y ys ih =>
    rw [insertSorted]
    split
    · exact (ih.cons y).trans (.swap x y ys)
    · exact .refl _

theorem map_insertSorted {precedes' : β → β → Bool} {f : α → β}
    (h : ∀ a b, precedes' (f a) (f b) = precedes a b) (x : α) (ys : List α) :
    (insertSorted precedes x ys).map f = insertSorted precedes' (f x) (ys.map f) := by
  induction ys with
  | nil => rfl
  | cons y ys ih =>
    rw [List.map_cons, insertSorted, insertSorted, h]
    split
    · rw [List.map_cons, ih]
    · rfl

/-- Inserting keeps a list arranged from the last to the first, where `precedes` tells on which side
of each element the new one belongs. -/
theorem pairwise_insertSorted (htrans : ∀ {a b c}, R a b → R b c → R a c) {x : α}
    {ys : List α} (hys : ys.Pairwise fun a b => R b a)
    (hx : ∀ y ∈ ys, if precedes x y then R x y else R y x) :
    (insertSorted precedes x ys).Pairwise fun a b => R b a := by
  induction ys with
  | nil => exact List.pairwise_singleton _ _
  | cons y ys ih =>
    obtain ⟨hy, hys⟩ := List.pairwise_cons.1 hys
    have hfirst := hx y List.mem_cons_self
    have hrest := fun z hz => hx z (List.mem_cons_of_mem _ hz)
    rw [insertSorted]
    split
    · rename_i hprecedes
      rw [if_pos hprecedes] at hfirst
      refine List.pairwise_cons.2 ⟨fun z hz => ?_, ih hys hrest⟩
      rcases List.mem_cons.1 ((perm_insertSorted x ys).mem_iff.1 hz) with rfl | hz
      · exact hfirst
      · exact hy z hz
    · rename_i hprecedes
      rw [if_neg hprecedes] at hfirst
      refine List.pairwise_cons.2 ⟨fun z hz => ?_, List.pairwise_cons.2 ⟨hy, hys⟩⟩
      rcases List.mem_cons.1 hz with rfl | hz
      · exact hfirst
      · exact htrans (hy z hz) hfirst

theorem perm_sortStable (xs : List α) : (sortStable precedes xs).Perm xs := by
  have hfold (ys : List α) :
      (xs.foldl (fun sorted x => insertSorted precedes x sorted) ys).Perm (xs.reverse ++ ys) := by
    induction xs generalizing ys with
    | nil => exact .refl _
    | cons x xs ih =>
      rw [List.foldl_cons, List.reverse_cons, List.append_assoc]
      exact (ih _).trans ((perm_insertSorted x ys).append_left _)
  rw [sortStable]
  refine (List.reverse_perm _).trans ((hfold []).trans ?_)
  rw [List.append_nil]
  exact List.reverse_perm xs

theorem map_sortStable {precedes' : β → β → Bool} {f : α → β}
    (h : ∀ a b, precedes' (f a) (f b) = precedes a b) (xs : List α) :
    sortStable precedes' (xs.map f) = (sortStable precedes xs).map f := by
  have hfold (ys : List α) : (xs.map f).foldl
      (fun sorted x => insertSorted precedes' x sorted) (ys.map f) =
      (xs.foldl (fun sorted x => insertSorted precedes x sorted) ys).map f := by
    induction xs generalizing ys with
    | nil => rfl
    | cons x xs ih =>
      rw [List.map_cons, List.foldl_cons, List.foldl_cons, ← ih, map_insertSorted h]
  rw [sortStable, sortStable, List.map_reverse, ← hfold]
  rfl

/-- Sorting arranges a list, where `precedes` tells which elements belong before those that are to
the left of them. -/
theorem pairwise_sortStable (htrans : ∀ {a b c}, R a b → R b c → R a c) {xs : List α}
    (hxs : xs.Pairwise fun a b => if precedes b a then R b a else R a b) :
    (sortStable precedes xs).Pairwise R := by
  have hfold {ys : List α} (hys : ys.Pairwise fun a b => R b a)
      (hside : ∀ x ∈ xs, ∀ y ∈ ys, if precedes x y then R x y else R y x) :
      (xs.foldl (fun sorted x => insertSorted precedes x sorted) ys).Pairwise fun a b => R b a := by
    induction xs generalizing ys with
    | nil => exact hys
    | cons x xs ih =>
      obtain ⟨hx, hxs⟩ := List.pairwise_cons.1 hxs
      have hinserted : (insertSorted precedes x ys).Pairwise fun a b => R b a :=
        pairwise_insertSorted (R := R) htrans hys (hside x List.mem_cons_self)
      refine ih hxs hinserted fun z hz y hy => ?_
      rcases List.mem_cons.1 ((perm_insertSorted x ys).mem_iff.1 hy) with rfl | hy
      · exact hx z hz
      · exact hside z (List.mem_cons_of_mem _ hz) y hy
  exact List.pairwise_reverse.2 (hfold .nil fun _ _ _ hy => absurd hy List.not_mem_nil)

end DocSelect
