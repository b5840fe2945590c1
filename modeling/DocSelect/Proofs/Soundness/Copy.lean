import DocSelect.Proofs.Soundness.Store
import DocSelect.Value.Descent

/-!
# Sound stores and copies

A copy takes over the marks of the nodes that it is made from. What is read from a sound store has
no branch inside a branch, so neither has its copy; new contents have no marks at all. Writing a
copy into a node that is no branch leaves a sound store.
-/
namespace DocSelect

-- ---------------------------------------------------------------------------
-- Trees that can be planted
-- ---------------------------------------------------------------------------

namespace Tree

def parts : Tree → List Tree
  | scalar .. => []
  | slice _ _ items => items
  | map _ _ entries => entries.map Prod.snd

/-- A branch is a slice of trees that are no branches, at every depth; no part is marked as a spread
where that is asked for. -/
inductive Tidy (w : Concern) : Tree → Prop
  | intro (t : Tree)
    (branch : t.marks.branch = true →
      (∃ r m items, t = .slice r m items) ∧ ∀ p ∈ t.parts, p.marks.branch = false)
    (settled : w = .spreads → ∀ p ∈ t.parts, p.marks.spread = false)
    (parts : ∀ p ∈ t.parts, Tidy w p) : Tidy w t

theorem mem_found {target : DescentTarget} {t : Tree} {r : Ref} (h : r ∈ t.found target) :
    ∃ p ∈ t.parts, r = p.ref ∨ r ∈ p.found target := by
  have hhere {here : Bool} {q : Ref} (h : r ∈ if here then [q] else []) : r = q := by
    cases here
    · exact absurd h List.not_mem_nil
    · exact List.mem_singleton.1 h
  cases t with
  | scalar => exact absurd h List.not_mem_nil
  | slice _ _ items =>
    have hitems (i : Nat) {ts : List Tree} (h : r ∈ foundItems target i ts) :
        ∃ p ∈ ts, r = p.ref ∨ r ∈ p.found target := by
      induction ts generalizing i with
      | nil => exact absurd h List.not_mem_nil
      | cons t ts ih =>
        simp only [foundItems, List.mem_append] at h
        rcases h with (h | h) | h
        · exact ⟨t, List.mem_cons_self, .inl (hhere h)⟩
        · exact ⟨t, List.mem_cons_self, .inr h⟩
        · obtain ⟨p, hp, h⟩ := ih _ h
          exact ⟨p, List.mem_cons_of_mem _ hp, h⟩
    exact hitems 0 h
  | map _ _ entries =>
    have hentries {es : List (String × Tree)} (h : r ∈ foundEntries target es) :
        ∃ p ∈ es.map Prod.snd, r = p.ref ∨ r ∈ p.found target := by
      induction es with
      | nil => exact absurd h List.not_mem_nil
      | cons e es ih =>
        simp only [foundEntries, List.mem_append] at h
        rcases h with (h | h) | h
        · exact ⟨e.2, List.mem_cons_self, .inl (hhere h)⟩
        · exact ⟨e.2, List.mem_cons_self, .inr h⟩
        · obtain ⟨p, hp, h⟩ := ih h
          exact ⟨p, List.mem_cons_of_mem _ hp, h⟩
    exact hentries h

end Tree

namespace Store

variable {w : Concern} {s t : Store} {r : Ref}

theorem marks_tree (s : Store) (r : Ref) : (s.tree r).marks = s.marks r := by
  unfold tree treeWithin
  split <;> rfl

theorem Grounded.parts_tree (h : s.Grounded r) :
    (s.tree r).parts = (s.data r).children.map s.tree := by
  rw [h.tree_eq]
  cases s.data r with
  | scalar => rfl
  | slice => rfl
  | map entries => simp [Tree.parts, Data.children, Dict.values]

theorem ref_tree (s : Store) (r : Ref) : (s.tree r).ref = r := by
  unfold tree treeWithin
  split <;> rfl

theorem Sound.found_fit (h : s.Sound w) {target : DescentTarget} {c : Ref}
    (hc : c ∈ (s.tree r).found target) : s.Fit w c := by
  induction h.grounded r generalizing c with
  | intro r hacc ih =>
    obtain ⟨p, hp, hc⟩ := Tree.mem_found hc
    rw [Grounded.parts_tree ⟨r, hacc⟩] at hp
    obtain ⟨q, hq, rfl⟩ := List.mem_map.1 hp
    rcases hc with rfl | hc
    · rw [ref_tree]
      exact h.part_fit hq
    · exact ih q hq hc

theorem Sound.tidy_tree (h : s.Sound w) (r : Ref) : (s.tree r).Tidy w := by
  induction h.grounded r with
  | intro r hacc ih =>
    have hparts := Grounded.parts_tree (r := r) ⟨r, hacc⟩
    refine .intro _ (fun hb => ?_) (fun hw p hp => ?_) fun p hp => ?_
    · rw [marks_tree] at hb
      obtain ⟨items, hd, hitems⟩ := h.flat r hb
      refine ⟨⟨r, s.marks r, items.map s.tree, ?_⟩, fun p hp => ?_⟩
      · rw [(h.grounded r).tree_eq, hd]
      · rw [hparts, hd] at hp
        obtain ⟨c, hc, rfl⟩ := List.mem_map.1 hp
        rw [marks_tree]
        exact hitems c hc
    · rw [hparts] at hp
      obtain ⟨c, hc, rfl⟩ := List.mem_map.1 hp
      rw [marks_tree]
      exact h.settled hw r c hc
    · rw [hparts] at hp
      obtain ⟨c, hc, rfl⟩ := List.mem_map.1 hp
      exact ih c hc

-- ---------------------------------------------------------------------------
-- Planting
-- ---------------------------------------------------------------------------

structure Stand (s : Store) (roots : List Ref) (ts : List Tree) : Prop where
  known {r : Ref} : r ∈ roots → s.Known r
  marks : roots.map s.marks = ts.map Tree.marks

namespace Stand

variable {roots : List Ref} {ts : List Tree}

theorem exists_tree (h : s.Stand roots ts) (hr : r ∈ roots) :
    ∃ p ∈ ts, s.marks r = p.marks := by
  have hm : s.marks r ∈ ts.map Tree.marks := h.marks ▸ List.mem_map_of_mem hr
  obtain ⟨p, hp, heq⟩ := List.mem_map.1 hm
  exact ⟨p, hp, heq.symm⟩

theorem fit (h : s.Stand roots ts) (hs : w = .spreads → ∀ p ∈ ts, p.marks.spread = false) :
    ∀ r ∈ roots, s.Fit w r := by
  intro r hr
  obtain ⟨p, hp, heq⟩ := h.exists_tree hr
  exact ⟨h.known hr, fun hw => by rw [isSpread, heq, hs hw p hp]⟩

theorem not_branch (h : s.Stand roots ts) (hb : ∀ p ∈ ts, p.marks.branch = false) :
    ∀ r ∈ roots, s.isBranch r = false := by
  intro r hr
  obtain ⟨p, hp, heq⟩ := h.exists_tree hr
  rw [isBranch, heq, hb p hp]

theorem cons {tree : Tree} (hr : s.Known r) (hm : s.marks r = tree.marks) (hg : Grown s t roots)
    (h : t.Stand roots ts) : t.Stand (r :: roots) (tree :: ts) := by
  have hon := Onward.of_grown hg
  constructor
  · intro q hq
    rcases List.mem_cons.1 hq with rfl | hq
    · exact hon.known hr
    · exact h.known hq
  · have hkeep : t.marks r = s.marks r := congrArg Node.marks (hg.node_old hr)
    rw [List.map_cons, List.map_cons, h.marks, hkeep, hm]

end Stand

theorem Sound.add_root (h : s.Sound w) {tree : Tree} {d : Data} {roots : List Ref}
    (ht : tree.Tidy w) (hst : s.Stand roots tree.parts) (hroots : ∀ c ∈ d.children, c ∈ roots)
    (hd : (∃ r m items, tree = .slice r m items) → d = .slice roots) :
    (s.add ⟨d, tree.marks⟩).2.Sound w ∧
      (s.add ⟨d, tree.marks⟩).2.marks (s.add ⟨d, tree.marks⟩).1 = tree.marks := by
  obtain ⟨_, hbranch, hsettled, -⟩ := ht
  refine ⟨h.add (fun c hc => hst.fit hsettled c (hroots c hc)) fun hb => ?_,
    by rw [marks, node_add_self]⟩
  obtain ⟨hslice, hparts⟩ := hbranch hb
  exact ⟨roots, hd hslice, hst.not_branch hparts⟩

mutual

theorem sound_plant : (tree : Tree) → tree.Tidy w → {s : Store} → s.Sound w →
    (s.plant tree).2.Sound w ∧ (s.plant tree).2.marks (s.plant tree).1 = tree.marks
  | .scalar r m a, ht, s, h => by
    refine h.add_root (d := .scalar a) ht ⟨fun hr => absurd hr List.not_mem_nil, rfl⟩
      (fun _ hc => hc) ?_
    rintro ⟨_, _, _, heq⟩
    cases heq
  | .slice r m items, ht, s, h => by
    have ⟨_, _, _, hparts⟩ := ht
    have ⟨hs, hst⟩ := sound_plantItems items hparts h
    exact hs.add_root (d := .slice _) ht hst (fun _ hc => hc) fun _ => rfl
  | .map r m entries, ht, s, h => by
    have ⟨_, _, _, hparts⟩ := ht
    have ⟨hs, hst⟩ :=
      sound_plantEntries entries (fun e he => hparts e.2 (List.mem_map_of_mem he)) h
    refine hs.add_root (d := .map _) ht hst (fun _ => Dict.mem_of_mem_values_ofList) ?_
    rintro ⟨_, _, _, heq⟩
    cases heq

theorem sound_plantItems : (ts : List Tree) → (∀ t ∈ ts, t.Tidy w) →
    {s : Store} → s.Sound w →
    (s.plantItems ts).2.Sound w ∧ (s.plantItems ts).2.Stand (s.plantItems ts).1 ts
  | [], _, s, h => ⟨h, fun hr => absurd hr List.not_mem_nil, rfl⟩
  | t :: ts, ht, s, h => by
    have ⟨hs, hm⟩ := sound_plant t (ht t List.mem_cons_self) h
    have ⟨hs', hst⟩ := sound_plantItems ts (fun u hu => ht u (List.mem_cons_of_mem _ hu)) hs
    have hroot := (grown_plant t s).root_fresh (List.mem_singleton.2 rfl)
    exact ⟨hs', hst.cons hroot.2 hm (grown_plantItems ts _)⟩

theorem sound_plantEntries :
    (es : List (String × Tree)) → (∀ e ∈ es, e.2.Tidy w) → {s : Store} →
    s.Sound w → (s.plantEntries es).2.Sound w ∧
      (s.plantEntries es).2.Stand ((s.plantEntries es).1.map Prod.snd) (es.map Prod.snd)
  | [], _, s, h => ⟨h, fun hr => absurd hr List.not_mem_nil, rfl⟩
  | (_, t) :: es, ht, s, h => by
    have ⟨hs, hm⟩ := sound_plant t (ht _ List.mem_cons_self) h
    have ⟨hs', hst⟩ := sound_plantEntries es (fun u hu => ht u (List.mem_cons_of_mem _ hu)) hs
    have hroot := (grown_plant t s).root_fresh (List.mem_singleton.2 rfl)
    exact ⟨hs', hst.cons hroot.2 hm (grown_plantEntries es _)⟩

end

-- ---------------------------------------------------------------------------
-- Copies
-- ---------------------------------------------------------------------------

theorem Sound.deepCopy (h : s.Sound w) (r : Ref) : (s.deepCopy r).2.Sound w :=
  (sound_plant _ (h.tidy_tree r) h).1

theorem Sound.copyData (h : s.Sound w) (r : Ref) :
    (s.copyData r).2.Sound w ∧ ∀ c ∈ (s.copyData r).1.children, (s.copyData r).2.Fit w c := by
  have ht := h.tidy_tree r
  unfold Store.copyData
  generalize s.tree r = tree at ht ⊢
  obtain ⟨_, -, hsettled, hparts⟩ := ht
  cases tree with
  | scalar => exact ⟨h, fun _ hc => absurd hc List.not_mem_nil⟩
  | slice _ _ items =>
    obtain ⟨hs, hst⟩ := sound_plantItems items hparts h
    exact ⟨hs, hst.fit hsettled⟩
  | map _ _ entries =>
    obtain ⟨hs, hst⟩ :=
      sound_plantEntries entries (fun e he => hparts _ (List.mem_map_of_mem he)) h
    exact ⟨hs, fun c hc => hst.fit hsettled c (Dict.mem_of_mem_values_ofList hc)⟩

theorem Sound.set (h : s.Sound w) {target : Ref} (ht : s.Single target) (value : Ref) :
    (s.set target value).Sound w := by
  obtain ⟨hs, hfit⟩ := h.copyData value
  obtain ⟨roots, hg, hd⟩ := s.grown_copyData value
  refine hs.setData ((Onward.of_grown hg).single ht).not_branch hfit fun c hc => ?_
  obtain ⟨slot, hslot⟩ := Data.mem_children_iff.1 hc
  exact hg.grounded (.setData ht.known _ _) (hg.root_fresh (hd.mem hslot))

theorem onward_set (s : Store) (target value : Ref) : s.Onward (s.set target value) := by
  obtain ⟨roots, hg, -⟩ := s.grown_copyData value
  exact (Onward.of_grown hg).trans (.setData _ target _)

-- ---------------------------------------------------------------------------
-- New contents
-- ---------------------------------------------------------------------------

theorem fit_of_unmarked {roots : List Ref} (hg : Grown s t roots)
    (hm : ∀ r ∈ roots, t.marks r = Marks.none) : ∀ r ∈ roots, t.Fit w r :=
  fun r hr => ⟨(hg.root_fresh hr).2, fun _ => by rw [isSpread, hm r hr]; rfl⟩

mutual

theorem sound_build : (c : Content) → {s : Store} → s.Sound w →
    (s.build c).2.Sound w ∧ (s.build c).2.marks (s.build c).1 = Marks.none
  | .scalar a, s, h =>
    ⟨h.new (d := .scalar a) fun _ hc => absurd hc List.not_mem_nil, marks_new_self _ _⟩
  | .slice items, s, h => by
    have ⟨hs, hm⟩ := sound_buildItems items h
    exact ⟨hs.new (d := .slice _) (fit_of_unmarked (grown_buildItems items s) hm),
      marks_new_self _ _⟩
  | .map entries, s, h => by
    have ⟨hs, hm⟩ := sound_buildEntries entries h
    have hfit := fit_of_unmarked (w := w) (grown_buildEntries entries s) hm
    exact ⟨hs.new (d := .map _) fun c hc => hfit c (Dict.mem_of_mem_values_ofList hc),
      marks_new_self _ _⟩

theorem sound_buildItems : (cs : List Content) → {s : Store} → s.Sound w →
    (s.buildItems cs).2.Sound w ∧
      ∀ r ∈ (s.buildItems cs).1, (s.buildItems cs).2.marks r = Marks.none
  | [], _, h => ⟨h, fun _ hr => absurd hr List.not_mem_nil⟩
  | c :: cs, s, h => by
    have ⟨hs, hm⟩ := sound_build c h
    have ⟨hs', hm'⟩ := sound_buildItems cs hs
    have hroot := (grown_build c s).root_fresh (List.mem_singleton.2 rfl)
    refine ⟨hs', fun r hr => ?_⟩
    rcases List.mem_cons.1 hr with rfl | hr
    · exact (congrArg Node.marks ((grown_buildItems cs _).node_old hroot.2)).trans hm
    · exact hm' r hr

theorem sound_buildEntries : (es : List (String × Content)) → {s : Store} → s.Sound w →
    (s.buildEntries es).2.Sound w ∧
      ∀ r ∈ (s.buildEntries es).1.map Prod.snd, (s.buildEntries es).2.marks r = Marks.none
  | [], _, h => ⟨h, fun _ hr => absurd hr List.not_mem_nil⟩
  | (_, c) :: es, s, h => by
    have ⟨hs, hm⟩ := sound_build c h
    have ⟨hs', hm'⟩ := sound_buildEntries es hs
    have hroot := (grown_build c s).root_fresh (List.mem_singleton.2 rfl)
    refine ⟨hs', fun r hr => ?_⟩
    rcases List.mem_cons.1 hr with rfl | hr
    · exact (congrArg Node.marks ((grown_buildEntries es _).node_old hroot.2)).trans hm
    · exact hm' r hr

end

end Store

end DocSelect
