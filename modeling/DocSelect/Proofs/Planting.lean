import DocSelect.Value.Path
import DocSelect.Proofs.Effects.Builtin
import Mathlib.Data.List.Nodup

/-!
# New trees in a store

Building a content and copying a value add trees of new nodes: the nodes that were there stay as
they are, no new node has an old part, and each is a part of at most one new node, in one slot. That
is `Grown`, with the roots of the new trees.
-/
namespace DocSelect

structure Data.PartsOnce (d : Data) (refs : List Ref) : Prop where
  mem {slot : Slot} {c : Ref} : d.part? slot = some c → c ∈ refs
  unique {slot slot' : Slot} {c : Ref} : d.part? slot = some c →
    d.part? slot' = some c → slot = slot'

namespace Data.PartsOnce

theorem scalar (a : Scalar) (refs : List Ref) : (Data.scalar a).PartsOnce refs where
  mem h := by simp [Data.part?] at h
  unique h := by simp [Data.part?] at h

theorem slice {refs : List Ref} (h : refs.Nodup) : (Data.slice refs).PartsOnce refs where
  mem {slot c} hc := by
    cases slot with
    | key => simp [Data.part?] at hc
    | position i => exact List.mem_of_getElem? hc
  unique {slot slot' c} hc hc' := by
    cases slot <;> cases slot' <;> simp only [Data.part?, reduceCtorEq] at hc hc'
    rw [Slot.position.injEq]
    obtain ⟨hi, hic⟩ := List.getElem?_eq_some_iff.1 hc
    obtain ⟨hj, hjc⟩ := List.getElem?_eq_some_iff.1 hc'
    exact (List.Nodup.getElem_inj_iff h).1 (hic.trans hjc.symm)

theorem map {refs : List (String × Ref)} (h : (refs.map Prod.snd).Nodup) :
    (Data.map (Dict.ofList refs)).PartsOnce (refs.map Prod.snd) where
  mem {slot c} hc := by
    cases slot with
    | key k => exact List.mem_map.2 ⟨_, Dict.mem_of_find?_ofList hc, rfl⟩
    | position => simp [Data.part?] at hc
  unique {slot slot' c} hc hc' := by
    cases slot <;> cases slot' <;> simp only [Data.part?, reduceCtorEq] at hc hc'
    rw [Slot.key.injEq]
    have heq := List.inj_on_of_nodup_map h (Dict.mem_of_find?_ofList hc)
      (Dict.mem_of_find?_ofList hc') rfl
    exact congrArg Prod.fst heq

end Data.PartsOnce

namespace Store

/-- A node that one store has and the other had not yet. -/
def Fresh (s s' : Store) (r : Ref) : Prop := s.size ≤ r.index ∧ r.index < s'.size

def KeepsNew (s s' u : Store) : Prop := ∀ r, Fresh s s' r → u.data r = s'.data r

theorem KeepsNew.refl (s s' : Store) : KeepsNew s s' s' := fun _ _ => rfl

theorem KeepsNew.setData {s : Store} {target : Ref} (h : target.index < s.size) (s' : Store)
    (d : Data) : KeepsNew s s' (s'.setData target d) := by
  intro r hr
  have hne : r ≠ target := fun heq => absurd hr.1 (Nat.not_le.2 (heq ▸ h))
  rw [data, Store.setData, node_modify_of_ne s' _ hne, data]

structure Grown (s s' : Store) (roots : List Ref) : Prop where
  size_le : s.size ≤ s'.size
  node_old {r : Ref} : r.index < s.size → s'.node r = s.node r
  root_fresh {r : Ref} : r ∈ roots → Fresh s s' r
  roots_nodup : roots.Nodup
  part_fresh {a c : Ref} {slot : Slot} : Fresh s s' a → s'.part? a slot = some c →
    Fresh s s' c ∧ c ∉ roots
  part_unique {a b c : Ref} {slot slot' : Slot} : Fresh s s' a → Fresh s s' b →
    s'.part? a slot = some c → s'.part? b slot' = some c → a = b ∧ slot = slot'
  part_lt {a c : Ref} {slot : Slot} : Fresh s s' a → s'.part? a slot = some c →
    c.index < a.index

namespace Grown

variable {s t u : Store} {roots others : List Ref}

theorem part_old (h : Grown s t roots) {r : Ref} (hr : r.index < s.size) (slot : Slot) :
    t.part? r slot = s.part? r slot := by
  simp only [part?, data, h.node_old hr]

theorem refl (s : Store) : Grown s s [] where
  size_le := Nat.le_refl _
  node_old _ := rfl
  root_fresh h := by simp at h
  roots_nodup := List.nodup_nil
  part_fresh h := absurd h.2 (Nat.not_lt.2 h.1)
  part_unique h := absurd h.2 (Nat.not_lt.2 h.1)
  part_lt h := absurd h.2 (Nat.not_lt.2 h.1)

theorem fresh_cases {a : Ref} (h : Fresh s u a) : Fresh s t a ∨ Fresh t u a := by
  by_cases ha : a.index < t.size
  · exact .inl ⟨h.1, ha⟩
  · exact .inr ⟨Nat.le_of_not_lt ha, h.2⟩

theorem append (h : Grown s t roots) (k : Grown t u others) : Grown s u (roots ++ others) where
  size_le := Nat.le_trans h.size_le k.size_le
  node_old hr := (k.node_old (Nat.lt_of_lt_of_le hr h.size_le)).trans (h.node_old hr)
  root_fresh hr := by
    rcases List.mem_append.1 hr with hr | hr
    · exact ⟨(h.root_fresh hr).1, Nat.lt_of_lt_of_le (h.root_fresh hr).2 k.size_le⟩
    · exact ⟨Nat.le_trans h.size_le (k.root_fresh hr).1, (k.root_fresh hr).2⟩
  roots_nodup := by
    refine List.nodup_append.2 ⟨h.roots_nodup, k.roots_nodup, ?_⟩
    rintro a ha b hb rfl
    exact absurd (h.root_fresh ha).2 (Nat.not_lt.2 (k.root_fresh hb).1)
  part_fresh {a c slot} ha hc := by
    rcases fresh_cases (t := t) ha with ha | ha
    · rw [k.part_old ha.2] at hc
      obtain ⟨hfresh, hno⟩ := h.part_fresh ha hc
      refine ⟨⟨hfresh.1, Nat.lt_of_lt_of_le hfresh.2 k.size_le⟩, fun hm => ?_⟩
      rcases List.mem_append.1 hm with hm | hm
      · exact hno hm
      · exact absurd hfresh.2 (Nat.not_lt.2 (k.root_fresh hm).1)
    · obtain ⟨hfresh, hno⟩ := k.part_fresh ha hc
      refine ⟨⟨Nat.le_trans h.size_le hfresh.1, hfresh.2⟩, fun hm => ?_⟩
      rcases List.mem_append.1 hm with hm | hm
      · exact absurd (h.root_fresh hm).2 (Nat.not_lt.2 hfresh.1)
      · exact hno hm
  part_unique {a b c slot slot'} ha hb hac hbc := by
    rcases fresh_cases (t := t) ha with ha | ha <;> rcases fresh_cases (t := t) hb with hb | hb
    · rw [k.part_old ha.2] at hac
      rw [k.part_old hb.2] at hbc
      exact h.part_unique ha hb hac hbc
    · rw [k.part_old ha.2] at hac
      exact absurd (h.part_fresh ha hac).1.2 (Nat.not_lt.2 (k.part_fresh hb hbc).1.1)
    · rw [k.part_old hb.2] at hbc
      exact absurd (h.part_fresh hb hbc).1.2 (Nat.not_lt.2 (k.part_fresh ha hac).1.1)
    · exact k.part_unique ha hb hac hbc
  part_lt {a c slot} ha hc := by
    rcases fresh_cases (t := t) ha with ha | ha
    · rw [k.part_old ha.2] at hc
      exact h.part_lt ha hc
    · exact k.part_lt ha hc

theorem cap (h : Grown s t roots) {n : Node} (hd : n.data.PartsOnce roots) :
    Grown s (t.add n).2 [(t.add n).1] := by
  have hself : (t.add n).2.data (t.add n).1 = n.data := by simp [data]
  have hold {r : Ref} (hr : r.index < t.size) (slot : Slot) :
      (t.add n).2.part? r slot = t.part? r slot := by
    simp only [part?, data, t.node_add_of_lt n hr]
  -- a new node is a new node of `t` or the container itself
  have hcases {a : Ref} (ha : Fresh s (t.add n).2 a) : Fresh s t a ∨ a = (t.add n).1 := by
    by_cases hlt : a.index < t.size
    · exact .inl ⟨ha.1, hlt⟩
    · have := ha.2
      rw [size_add] at this
      refine .inr ?_
      cases a
      simp only [add, Ref.mk.injEq]
      exact Nat.le_antisymm (Nat.le_of_lt_succ this) (Nat.le_of_not_lt hlt)
  have hpart {a c : Ref} {slot : Slot} (ha : Fresh s (t.add n).2 a)
      (hc : (t.add n).2.part? a slot = some c) : Fresh s t c := by
    rcases hcases ha with ha | rfl
    · rw [hold ha.2] at hc
      exact (h.part_fresh ha hc).1
    · rw [part?, hself] at hc
      exact h.root_fresh (hd.mem hc)
  refine ⟨?_, fun hr => ?_, fun hr => ?_, by simp, fun ha hc => ?_, fun ha hb hac hbc => ?_,
    fun ha hc => ?_⟩
  · rw [size_add]
    exact Nat.le_succ_of_le h.size_le
  · rw [t.node_add_of_lt n (Nat.lt_of_lt_of_le hr h.size_le), h.node_old hr]
  · rw [List.mem_singleton] at hr
    subst hr
    exact ⟨h.size_le, by rw [size_add]; exact Nat.lt_succ_self _⟩
  · have hlt := hpart ha hc
    refine ⟨⟨hlt.1, by rw [size_add]; exact Nat.lt_succ_of_lt hlt.2⟩, fun hm => ?_⟩
    rw [List.mem_singleton] at hm
    subst hm
    exact absurd hlt.2 (Nat.lt_irrefl _)
  · rcases hcases ha with ha | rfl <;> rcases hcases hb with hb | rfl
    · rw [hold ha.2] at hac
      rw [hold hb.2] at hbc
      exact h.part_unique ha hb hac hbc
    · rw [hold ha.2] at hac
      rw [part?, hself] at hbc
      exact absurd (hd.mem hbc) (h.part_fresh ha hac).2
    · rw [hold hb.2] at hbc
      rw [part?, hself] at hac
      exact absurd (hd.mem hac) (h.part_fresh hb hbc).2
    · rw [part?, hself] at hac hbc
      exact ⟨rfl, hd.unique hac hbc⟩
  · rcases hcases ha with hin | rfl
    · rw [hold hin.2] at hc
      exact h.part_lt hin hc
    · exact (hpart ha hc).2

end Grown

mutual

theorem grown_build : (c : Content) → (s : Store) → Grown s (s.build c).2 [(s.build c).1]
  | .scalar a, s => (Grown.refl s).cap (.scalar a [])
  | .slice items, s =>
    (grown_buildItems items s).cap (.slice (grown_buildItems items s).roots_nodup)
  | .map entries, s =>
    (grown_buildEntries entries s).cap (.map (grown_buildEntries entries s).roots_nodup)

theorem grown_buildItems : (cs : List Content) → (s : Store) →
    Grown s (s.buildItems cs).2 (s.buildItems cs).1
  | [], s => .refl s
  | c :: cs, s => (grown_build c s).append (grown_buildItems cs _)

theorem grown_buildEntries : (es : List (String × Content)) → (s : Store) →
    Grown s (s.buildEntries es).2 ((s.buildEntries es).1.map Prod.snd)
  | [], s => .refl s
  | (_, c) :: es, s => (grown_build c s).append (grown_buildEntries es _)

end

mutual

theorem grown_plant : (t : Tree) → (s : Store) → Grown s (s.plant t).2 [(s.plant t).1]
  | .scalar _ _ a, s => (Grown.refl s).cap (.scalar a [])
  | .slice _ _ items, s =>
    (grown_plantItems items s).cap (.slice (grown_plantItems items s).roots_nodup)
  | .map _ _ entries, s =>
    (grown_plantEntries entries s).cap (.map (grown_plantEntries entries s).roots_nodup)

theorem grown_plantItems : (ts : List Tree) → (s : Store) →
    Grown s (s.plantItems ts).2 (s.plantItems ts).1
  | [], s => .refl s
  | t :: ts, s => (grown_plant t s).append (grown_plantItems ts _)

theorem grown_plantEntries : (es : List (String × Tree)) → (s : Store) →
    Grown s (s.plantEntries es).2 ((s.plantEntries es).1.map Prod.snd)
  | [], s => .refl s
  | (_, t) :: es, s => (grown_plant t s).append (grown_plantEntries es _)

end

theorem grown_copyData (s : Store) (r : Ref) :
    ∃ roots, Grown s (s.copyData r).2 roots ∧ (s.copyData r).1.PartsOnce roots := by
  unfold copyData
  cases s.tree r with
  | scalar _ _ a => exact ⟨[], .refl s, .scalar a []⟩
  | slice _ _ items =>
    exact ⟨_, grown_plantItems items s, .slice (grown_plantItems items s).roots_nodup⟩
  | map _ _ entries =>
    exact ⟨_, grown_plantEntries entries s, .map (grown_plantEntries entries s).roots_nodup⟩

end Store

end DocSelect
