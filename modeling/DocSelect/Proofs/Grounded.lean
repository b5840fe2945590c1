import DocSelect.Proofs.Planting
import Mathlib.Data.List.Perm.Subperm
import Mathlib.Logic.Relation

/-!
# Values without cycles

A node is grounded if no path goes down from it without end. A path below a grounded node meets no
node twice, so it is no longer than the store has nodes, and whatever counts the levels below a node
never reaches the end of its count there: trees and flattened branches have equations that do not
count.
-/
namespace DocSelect

namespace Store

def Part (s : Store) (c r : Ref) : Prop := c ∈ (s.data r).children

def Grounded (s : Store) (r : Ref) : Prop := Acc s.Part r

/-- A path of this many steps goes down from the node. -/
def Deep (s : Store) : Nat → Ref → Prop
  | 0, _ => True
  | n + 1, r => ∃ c, s.Part c r ∧ s.Deep n c

variable {s : Store} {q r c : Ref}

theorem Part.lt (h : s.Part c r) : r.index < s.size := by
  by_contra hlt
  have hge : s.nodes.size ≤ r.index := Nat.le_of_not_lt hlt
  have hdata : s.data r = .null := by
    simp [data, node, hge, Data.null]
    rfl
  rw [Part, hdata] at h
  simp [Data.null, Data.children] at h

theorem below_iff_follow? : Relation.ReflTransGen s.Part q r ↔
    ∃ path, s.follow? r path = some q := by
  constructor
  · intro h
    induction h using Relation.ReflTransGen.head_induction_on with
    | refl => exact ⟨[], rfl⟩
    | head hc _ ih =>
      obtain ⟨path, hpath⟩ := ih
      obtain ⟨slot, hslot⟩ := Data.mem_children_iff.1 hc
      exact ⟨path ++ [slot], by rw [follow?_concat, hpath]; exact hslot⟩
  · rintro ⟨path, hpath⟩
    induction path generalizing r with
    | nil => exact Option.some.inj hpath ▸ .refl
    | cons slot path ih =>
      obtain ⟨c, hc, hrest⟩ := Option.bind_eq_some_iff.1 hpath
      exact (ih hrest).tail (Data.mem_children_iff.2 ⟨slot, hc⟩)

theorem children_of_items? {items : List Ref} (h : s.items? r = .ok items) :
    (s.data r).children = items := by
  unfold items? at h
  split at h
  · rename_i hd
    rw [hd, Data.children, Except.ok.inj h]
  · cases h

theorem Grounded.part (h : s.Grounded r) (hc : s.Part c r) : s.Grounded c := h.inv hc

theorem Grounded.no_cycle (h : s.Grounded r) : ¬ Relation.TransGen s.Part r r := by
  have hacc := h.transGen
  clear h
  induction hacc with
  | intro r _ ih => exact fun hr => ih r hr hr

theorem Grounded.le_size {n : Nat} (h : s.Grounded r) (hn : s.Deep n r) : n ≤ s.size := by
  -- the nodes of the path, each of which has parts
  obtain ⟨path, hlen, hnodup, hpath⟩ : ∃ path : List Ref, path.length = n ∧ path.Nodup ∧
      ∀ q ∈ path, q.index < s.size ∧ Relation.ReflTransGen s.Part q r := by
    induction n generalizing r with
    | zero => exact ⟨[], rfl, List.nodup_nil, by simp⟩
    | succ n ih =>
      obtain ⟨c, hc, hn⟩ := hn
      obtain ⟨path, hlen, hnodup, hpath⟩ := ih (h.part hc) hn
      refine ⟨r :: path, by simp [hlen], List.nodup_cons.2 ⟨fun hr => ?_, hnodup⟩, ?_⟩
      · exact h.no_cycle (.tail' (hpath r hr).2 hc)
      · intro q hq
        rcases List.mem_cons.1 hq with rfl | hq
        · exact ⟨hc.lt, .refl⟩
        · exact ⟨(hpath q hq).1, (hpath q hq).2.tail hc⟩
  have hindices : (path.map Ref.index).Nodup :=
    hnodup.map fun a b heq => by cases a; cases b; simp_all
  have hsub : path.map Ref.index ⊆ List.range s.size := by
    intro i hi
    obtain ⟨q, hq, rfl⟩ := List.mem_map.1 hi
    exact List.mem_range.2 (hpath q hq).1
  have hle := (hindices.subperm hsub).length_le
  rwa [List.length_map, List.length_range, hlen] at hle

theorem Grounded.not_deep (h : s.Grounded r) : ¬ s.Deep (s.size + 1) r := fun hn =>
  absurd (h.le_size hn) (Nat.not_succ_le_self _)

theorem Grounded.of_data_eq {t : Store} (kept : Ref → Prop) (h : s.Grounded r) (hr : kept r)
    (hpart : ∀ {a c : Ref}, kept a → s.Part c a → kept c)
    (hdata : ∀ {a : Ref}, kept a → t.data a = s.data a) : t.Grounded r := by
  induction h with
  | intro r _ ih =>
    refine ⟨r, fun c hc => ?_⟩
    have hc : s.Part c r := by rwa [Part, hdata hr] at hc
    exact ih c hc (hpart hr hc)

/-- The nodes of new trees are grounded, as long as they stay: their parts have smaller names. -/
theorem Grown.grounded {t u : Store} {roots : List Ref} (h : Grown s t roots) (hu : KeepsNew s t u)
    (hr : Fresh s t r) : u.Grounded r := by
  obtain ⟨i⟩ := r
  induction i using Nat.strongRecOn with
  | ind i ih =>
    refine ⟨_, fun c hc => ?_⟩
    rw [Part, hu _ hr] at hc
    obtain ⟨slot, hslot⟩ := Data.mem_children_iff.1 hc
    obtain ⟨hfresh, -⟩ := h.part_fresh hr hslot
    obtain ⟨j⟩ := c
    exact ih j (h.part_lt hr hslot) hfresh

theorem Grounded.setData {target : Ref} {d : Data} (h : s.Grounded r)
    (hd : ∀ c ∈ d.children, (s.setData target d).Grounded c) :
    (s.setData target d).Grounded r := by
  induction h with
  | intro r _ ih =>
    refine ⟨r, fun c hc => ?_⟩
    by_cases heq : r = target
    · subst heq
      by_cases hlt : r.index < s.size
      · rw [Part, data_setData_self s d hlt] at hc
        exact hd c hc
      · have hlt' := hc.lt
        rw [Store.setData, size_modify] at hlt'
        exact absurd hlt' hlt
    · rw [Part, data, Store.setData, node_modify_of_ne s _ heq] at hc
      exact ih c hc

theorem treeWithin_stable {fuel : Nat} (h : ¬ s.Deep fuel r) (more : Nat) :
    s.treeWithin (fuel + more) r = s.treeWithin fuel r := by
  induction fuel generalizing r with
  | zero => exact absurd trivial h
  | succ fuel ih =>
    have hpart {c : Ref} (hc : c ∈ (s.data r).children) :
        s.treeWithin (fuel + more) c = s.treeWithin fuel c := ih fun hn => h ⟨c, hc, hn⟩
    rw [Nat.add_right_comm]
    unfold treeWithin
    split
    · rfl
    · rename_i items hd
      have hitems : ∀ c ∈ items, s.treeWithin (fuel + more) c = s.treeWithin fuel c :=
        fun c hc => hpart (by rwa [hd])
      rw [List.map_congr_left hitems]
    · rename_i entries hd
      have hentries : ∀ e ∈ entries.entries, (e.1, s.treeWithin (fuel + more) e.2) =
          (e.1, s.treeWithin fuel e.2) := fun e he => by
        rw [hpart (by rw [hd]; exact List.mem_map.2 ⟨e, he, rfl⟩)]
      rw [List.map_congr_left hentries]

theorem Grounded.tree_eq (h : s.Grounded r) :
    s.tree r =
      match s.data r with
      | .scalar a => .scalar r (s.marks r) a
      | .slice items => .slice r (s.marks r) (items.map s.tree)
      | .map entries => .map r (s.marks r) (entries.entries.map fun (k, c) => (k, s.tree c)) := by
  have hpart {c : Ref} (hc : c ∈ (s.data r).children) : s.treeWithin s.size c = s.tree c :=
    (treeWithin_stable (fun hn => h.not_deep ⟨c, hc, hn⟩) 1).symm
  rw [tree, treeWithin]
  rcases hd : s.data r with a | items | entries
  · rfl
  · have hitems : ∀ c ∈ items, s.treeWithin s.size c = s.tree c :=
      fun c hc => hpart (by rwa [hd])
    simp only [List.map_congr_left hitems]
  · have hentries : ∀ e ∈ entries.entries, (e.1, s.treeWithin s.size e.2) =
        (e.1, s.tree e.2) :=
      fun e he => by rw [hpart (by rw [hd]; exact List.mem_map.2 ⟨e, he, rfl⟩)]
    simp only [List.map_congr_left hentries]

theorem mapM_congr_mem {α β ε : Type} {f g : α → Except ε β} {xs : List α}
    (h : ∀ x ∈ xs, f x = g x) : xs.mapM f = xs.mapM g := by
  induction xs with
  | nil => rfl
  | cons x xs ih =>
    rw [List.mapM_cons, List.mapM_cons, h x List.mem_cons_self,
      ih fun y hy => h y (List.mem_cons_of_mem _ hy)]

theorem flattenWithin_stable {fuel : Nat} (h : ¬ s.Deep fuel r) (more : Nat) :
    s.flattenWithin (fuel + more) r = s.flattenWithin fuel r := by
  induction fuel generalizing r with
  | zero => exact absurd trivial h
  | succ fuel ih =>
    rw [Nat.add_right_comm]
    unfold flattenWithin
    rcases hi : s.items? r with e | items
    · rfl
    · have hitems : ∀ c ∈ items, s.flattenWithin (fuel + more) c = s.flattenWithin fuel c := by
        intro c hc
        refine ih fun hn => h ⟨c, ?_, hn⟩
        rwa [Part, children_of_items? hi]
      simp only [bind, Except.bind, mapM_congr_mem hitems]

theorem Grounded.flatten_eq (h : s.Grounded r) :
    s.flatten r =
      if s.isBranch r then do return (← (← s.items? r).mapM s.flatten).flatten
      else .ok [r] := by
  rw [flatten, flattenWithin]
  rcases hi : s.items? r with e | items
  · rfl
  · have hitems : ∀ c ∈ items, s.flattenWithin s.size c = s.flatten c := fun c hc =>
      have hpart : s.Part c r := by rwa [Part, children_of_items? hi]
      (flattenWithin_stable (fun hn => h.not_deep ⟨c, hpart, hn⟩) 1).symm
    simp only [bind, Except.bind, mapM_congr_mem hitems]

end Store

end DocSelect
