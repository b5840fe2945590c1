import DocSelect.Proofs.Listing
import DocSelect.Proofs.Order
import DocSelect.Proofs.Sorting.Stable
import DocSelect.Proofs.Turns

/-!
# Sorting by keys

A sort arranges the positions of the elements, by the keys at them. Positions never compare equal if
those with equal keys compare by where they are, so there is one arrangement for each direction, and
the sort gives that one. Where no two keys are equal, the arrangements of the two directions are
each other's reverse.
-/
namespace DocSelect

-- ---------------------------------------------------------------------------
-- Arrangements of positions
-- ---------------------------------------------------------------------------

namespace SortDirection

def toOrdering : SortDirection → Ordering
  | ascending => .lt
  | descending => .gt

/-- All positions, each one once, in the order of what is at them; those of equal things stay in
their own order. -/
structure Arranges (direction : SortDirection) {n : Nat} (cmp : Fin n → Fin n → Ordering)
    (order : List (Fin n)) : Prop where
  perm : order.Perm (List.finRange n)
  sorted : order.Pairwise fun i j => cmp i j = direction.toOrdering ∨ cmp i j = .eq ∧ i < j

variable {direction : SortDirection} {n : Nat} {cmp : Fin n → Fin n → Ordering}
  {order other : List (Fin n)} (hswap : ∀ i j, cmp j i = (cmp i j).swap)
include hswap

theorem arranges_sortStable (htrans : ∀ i j k, Coherent (cmp i j) (cmp j k) (cmp i k)) :
    direction.Arranges cmp
      (sortStable (fun i j => cmp i j == direction.toOrdering) (List.finRange n)) := by
  refine ⟨perm_sortStable _, pairwise_sortStable (fun {i j k} hij hjk => ?_) ?_⟩
  · obtain ⟨hleft, hright, hboth⟩ := htrans i j k
    rcases hij with hij | ⟨hij, hlt⟩
    · rcases hjk with hjk | ⟨hjk, -⟩
      · exact .inl ((hboth (hij.trans hjk.symm)).trans hij)
      · exact .inl ((hright hjk).trans hij)
    · rcases hjk with hjk | ⟨hjk, hlt'⟩
      · exact .inl ((hleft hij).trans hjk)
      · exact .inr ⟨(hleft hij).trans hjk, Nat.lt_trans hlt hlt'⟩
  · refine (List.pairwise_lt_finRange n).imp fun {i j} hlt => ?_
    simp only [hswap i j, beq_iff_eq]
    cases direction <;> cases cmp i j <;> simp [toOrdering, hlt]

theorem Arranges.unique (h : direction.Arranges cmp order) (h' : direction.Arranges cmp other) :
    order = other := by
  refine (h.perm.trans h'.perm.symm).eq_of_pairwise (fun i j _ _ hij hji => ?_) h.sorted h'.sorted
  rw [hswap i j] at hji
  rcases hij with hij | ⟨hij, hlt⟩ <;> rw [hij] at hji
  · cases direction <;> simp [toOrdering] at hji
  · rcases hji with hji | ⟨-, hlt'⟩
    · cases direction <;> cases hji
    · exact absurd hlt' (Nat.lt_asymm hlt)

theorem Arranges.reverse (h : ascending.Arranges cmp order)
    (hne : ∀ i j, i ≠ j → cmp i j ≠ .eq) : descending.Arranges cmp order.reverse := by
  refine ⟨(List.reverse_perm order).trans h.perm,
    List.pairwise_reverse.2 (h.sorted.imp fun {i j} hij => ?_)⟩
  rcases hij with hij | ⟨hij, hlt⟩
  · rw [hswap i j, hij]
    exact .inl rfl
  · exact absurd hij (hne i j (Fin.ne_of_lt hlt))

end SortDirection

-- ---------------------------------------------------------------------------
-- Keys
-- ---------------------------------------------------------------------------

/-- Elements with their keys: what an expression gives on each of them, one after the other. -/
inductive Session.Keyed (settings : Settings) (key : Expr) :
    Session → List (Ref × Ref) → Session → Prop
  | nil (σ : Session) : Keyed settings key σ [] σ
  | cons {σ υ τ : Session} {r k : Ref} {rest : List (Ref × Ref)} :
    evaluate settings key r σ = (.ok k, υ) → Keyed settings key υ rest τ →
      Keyed settings key σ ((r, k) :: rest) τ

/-- How the keys of the elements at two positions compare. -/
def Store.compareKeys (s : Store) (pairs : List (Ref × Ref)) (i j : Fin pairs.length) : Ordering :=
  s.compare pairs[i].2 pairs[j].2

variable {settings : Settings} {σ τ : Session} {s : Store} {key : Expr} {subject : Ref}
  {pairs : List (Ref × Ref)}

namespace Session.Keyed

theorem exec_sortKeys (h : σ.Keyed settings key pairs τ) :
    (Step.sortKeys key.step (pairs.map Prod.fst)).exec settings σ =
      (.ok (pairs.map Prod.snd), τ) := by
  induction h with
  | nil => rfl
  | cons hkey _ ih =>
    rw [List.map_cons, Step.sortKeys, Eval.exec_bind, ← evaluate_eq_exec, hkey]
    dsimp only
    rw [Eval.exec_bind, ih]
    rfl

theorem sound (hs : settings.Keeping .soundness) (h : σ.Keyed settings key pairs τ)
    (hσ : σ.Sound .soundness) (hknown : ∀ p ∈ pairs, σ.store.Known p.1) :
    τ.Sound .soundness := by
  induction h with
  | nil => exact hσ
  | cons hkey _ ih =>
    obtain ⟨hυ, hon, -⟩ := hσ.after hs (hknown _ List.mem_cons_self) hkey
    exact ih hυ fun p hp => hon.known (hknown p (List.mem_cons_of_mem _ hp))

theorem evaluate_sortBy (h : σ.Keyed settings key pairs τ)
    (hr : σ.store.isBranch subject = false)
    (hd : σ.store.data subject = .slice (pairs.map Prod.fst)) (direction : SortDirection) :
    let precedes (i j : Fin pairs.length) : Bool :=
      (τ.store.tree pairs[i].2).precedes (direction == .descending) (τ.store.tree pairs[j].2)
    evaluate settings (.sortBy key direction) subject σ =
      τ.newSlice ((sortStable precedes (List.finRange pairs.length)).map fun i => pairs[i].1) := by
  intro precedes
  have hzip : ((pairs.map Prod.snd).map τ.store.tree).zip (pairs.map Prod.fst) =
      (List.finRange pairs.length).map fun i => (τ.store.tree pairs[i].2, pairs[i].1) := by
    rw [List.map_map, List.zip_map']
    conv_lhs => rw [← List.map_getElem_finRange pairs, List.map_map]
    rfl
  have hsort : sortStable (fun a b : Tree × Ref => a.1.precedes (direction == .descending) b.1)
      (((pairs.map Prod.snd).map τ.store.tree).zip (pairs.map Prod.fst)) =
        (sortStable precedes (List.finRange pairs.length)).map fun i =>
          (τ.store.tree pairs[i].2, pairs[i].1) := by
    rw [hzip]
    exact map_sortStable (fun _ _ => rfl) _
  refine evaluate_ok _ hr ?_
  rw [Expr.denote, Step.sortBy, Eval.exec_bind, exec_elements_eq_ok_iff.2 ⟨hd, rfl⟩]
  dsimp only
  rw [Eval.exec_bind, ← Expr.step, h.exec_sortKeys]
  dsimp only
  rw [Eval.exec_bind, Eval.exec_read]
  dsimp only
  rw [Eval.exec_bind, Eval.exec_noteSort]
  dsimp only
  rw [hsort, List.map_map]
  rfl

end Session.Keyed

section
variable (hg : ∀ p ∈ pairs, s.Grounded p.2)
include hg

theorem Store.compareKeys_swap (i j : Fin pairs.length) :
    s.compareKeys pairs j i = (s.compareKeys pairs i j).swap :=
  (hg _ (List.getElem_mem i.2)).compare_swap (hg _ (List.getElem_mem j.2))

theorem Store.compareKeys_coherent (hfree : ∀ p ∈ pairs, ∀ x, ¬ s.HasScalar p.2 (.float x))
    (i j k : Fin pairs.length) :
    Coherent (s.compareKeys pairs i j) (s.compareKeys pairs j k) (s.compareKeys pairs i k) := by
  refine (hg _ (List.getElem_mem i.2)).compare_coherent (hg _ (List.getElem_mem j.2))
    (hg _ (List.getElem_mem k.2)) fun _ _ x _ _ hx => ?_
  rcases hx with hx | hx | hx <;> exact absurd hx (hfree _ (List.getElem_mem _) x)

end

theorem Session.Keyed.arranges (h : σ.Keyed settings key pairs τ)
    (hr : σ.store.isBranch subject = false)
    (hd : σ.store.data subject = .slice (pairs.map Prod.fst))
    (hg : ∀ p ∈ pairs, τ.store.Grounded p.2)
    (hfree : ∀ p ∈ pairs, ∀ x, ¬ τ.store.HasScalar p.2 (.float x))
    (direction : SortDirection) :
    ∃ order, evaluate settings (.sortBy key direction) subject σ =
        τ.newSlice (order.map fun i => pairs[i].1) ∧
      direction.Arranges (τ.store.compareKeys pairs) order := by
  have hprecedes (i j : Fin pairs.length) :
      (τ.store.tree pairs[i].2).precedes (direction == .descending) (τ.store.tree pairs[j].2) =
        (τ.store.compareKeys pairs i j == direction.toOrdering) := by
    cases direction
    · rfl
    · show (τ.store.compareKeys pairs j i == .lt) = _
      rw [Store.compareKeys_swap hg i j]
      cases τ.store.compareKeys pairs i j <;> rfl
  have heval := h.evaluate_sortBy hr hd direction
  simp only [hprecedes] at heval
  exact ⟨_, heval, SortDirection.arranges_sortStable (Store.compareKeys_swap hg)
    (Store.compareKeys_coherent hg hfree)⟩

/-- A slice is sorted by keys that hold no floating point numbers: the result is a new slice of the
elements themselves, each one once, in the order of their keys, and in their own order where keys
are equal. Without equal keys, sorting in the other direction turns the result around. Keys have no
cycles in the sessions that a program meets. -/
theorem sortBy_arranges (hr : σ.store.isBranch subject = false)
    (hd : σ.store.data subject = .slice (pairs.map Prod.fst)) (h : σ.Keyed settings key pairs τ)
    (hfree : ∀ p ∈ pairs, ∀ x, ¬ τ.store.HasScalar p.2 (.float x)) :
    (settings.Keeping .soundness → σ.Met settings → ∀ p ∈ pairs, τ.store.Grounded p.2) ∧
      ((∀ p ∈ pairs, τ.store.Grounded p.2) →
        ∃ up down, evaluate settings (.sortBy key .ascending) subject σ =
            τ.newSlice (up.map fun i => pairs[i].1) ∧
          evaluate settings (.sortBy key .descending) subject σ =
            τ.newSlice (down.map fun i => pairs[i].1) ∧
          SortDirection.ascending.Arranges (τ.store.compareKeys pairs) up ∧
          SortDirection.descending.Arranges (τ.store.compareKeys pairs) down ∧
          ((∀ i j, i ≠ j → τ.store.compareKeys pairs i j ≠ .eq) →
            down = up.reverse)) := by
  constructor
  · intro hs hmet p _
    have hσ := hmet.sound hs
    have hknown : ∀ p ∈ pairs, σ.store.Known p.1 := fun p hp => by
      refine hσ.store.part_known (r := subject) ?_
      rw [Store.Part, hd]
      exact List.mem_map_of_mem hp
    exact (h.sound hs hσ hknown).store.grounded _
  · intro hg
    obtain ⟨up, hup, hascending⟩ := h.arranges hr hd hg hfree .ascending
    obtain ⟨down, hdown, hdescending⟩ := h.arranges hr hd hg hfree .descending
    refine ⟨up, down, hup, hdown, hascending, hdescending, fun hne => ?_⟩
    have hswap := Store.compareKeys_swap hg
    exact hdescending.unique hswap (hascending.reverse hswap hne)

/-- Maps sorted by a property, up and down. -/
theorem sortBy_arranges_maps :
    let settings : Settings := ⟨Registry.builtins FileSystem.bare, fun _ => none, 10⟩
    let start :=
      Session.start (.slice [.map [("a", .int 2)], .map [("a", .int 1)], .map [("a", .int 3)]]) []
    let pairs : List (Ref × Ref) := [(⟨1⟩, ⟨0⟩), (⟨3⟩, ⟨2⟩), (⟨5⟩, ⟨4⟩)]
    let sorted (direction : SortDirection) :=
      evaluate settings (.sortBy (.property "a") direction) start.1 start.2
    let text (x : Except EvalError Ref × Session) :=
      x.1.toOption.map fun r => Json.compact (x.2.store.content r)
    start.2.Keyed settings (.property "a") pairs start.2 ∧
      (∃ up down, sorted .ascending = start.2.newSlice (up.map fun i => pairs[i].1) ∧
        sorted .descending = start.2.newSlice (down.map fun i => pairs[i].1) ∧
        SortDirection.ascending.Arranges (start.2.store.compareKeys pairs) up ∧
        SortDirection.descending.Arranges (start.2.store.compareKeys pairs) down ∧
        down = up.reverse) ∧
      text (sorted .ascending) = some
        "[\x7b\"a\":1\x7d,\x7b\"a\":2\x7d,\x7b\"a\":3\x7d]".toList := by
  intro settings start pairs sorted text
  have hmet : start.2.Met settings := .reachable (.start settings _ _)
  have hs := Settings.keeping_builtins .soundness FileSystem.bare (fun _ => none) 10
  have hkey {r k : Ref} (hr : start.2.store.isBranch r = false)
      (hk : start.2.store.key? r "a" = .ok k) :
      evaluate settings (.property "a") r start.2 = (.ok k, start.2) := by
    refine evaluate_ok _ hr ?_
    rw [Expr.denote, Step.property, Eval.exec_ask, hk]
    rfl
  have hkeyed : start.2.Keyed settings (.property "a") pairs start.2 :=
    .cons (hkey rfl rfl) (.cons (hkey rfl rfl) (.cons (hkey rfl rfl) (.nil _)))
  have hdata : start.2.store.data start.1 = .slice (pairs.map Prod.fst) := rfl
  have hfree : ∀ p ∈ pairs, ∀ x, ¬ start.2.store.HasScalar p.2 (.float x) := by
    intro p hp x hx
    rcases List.mem_cons.1 hp with rfl | hp
    · exact absurd (hx.eq_of_data rfl) Scalar.noConfusion
    rcases List.mem_pair.1 hp with rfl | rfl <;> exact absurd (hx.eq_of_data rfl) Scalar.noConfusion
  obtain ⟨hgrounded, hsorts⟩ := sortBy_arranges (by decide +kernel) hdata hkeyed hfree
  obtain ⟨up, down, hup, hdown, hascending, hdescending, hreverse⟩ := hsorts (hgrounded hs hmet)
  exact ⟨hkeyed, ⟨up, down, hup, hdown, hascending, hdescending,
    hreverse (by decide +kernel)⟩, by decide +kernel⟩

end DocSelect
