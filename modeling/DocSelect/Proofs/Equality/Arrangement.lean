import DocSelect.Proofs.Order.Level

/-!
# Contents whatever the order of their maps

The entries of a map are in the map's own order, which is no part of what the map is. Arranged, the
entries of every map stand in the order of their keys. Since no map has a key twice, contents that
differ only in the order of entries, in whichever of their maps, are the same once they are
arranged.
-/
namespace DocSelect

namespace Content

/-- No floating point number is in the content, at any depth. -/
inductive FloatFree : Content → Prop where
  | scalar {a : Scalar} (h : ∀ x, a ≠ .float x) : FloatFree (.scalar a)
  | slice {items : List Content} (h : ∀ c ∈ items, FloatFree c) : FloatFree (.slice items)
  | map {entries : List (String × Content)} (h : ∀ e ∈ entries, FloatFree e.2) :
    FloatFree (.map entries)

/-- The second content is the first one with the entries of one map in it, at any depth, in another
order. -/
inductive Permuted : Content → Content → Prop where
  | entries {entries others : List (String × Content)} (hkeys : (Assoc.keys entries).Nodup)
    (h : entries.Perm others) : Permuted (.map entries) (.map others)
  | item {c d : Content} (before after : List Content) (h : Permuted c d) :
    Permuted (.slice (before ++ c :: after)) (.slice (before ++ d :: after))
  | value {c d : Content} (key : String) (before after : List (String × Content))
    (h : Permuted c d) :
    Permuted (.map (before ++ (key, c) :: after)) (.map (before ++ (key, d) :: after))

mutual

def arranged : Content → Content
  | scalar a => scalar a
  | slice items => slice (arrangedItems items)
  | map entries => map ((arrangedEntries entries).mergeSort fun a b => decide (¬ b.1 < a.1))

def arrangedItems : List Content → List Content
  | [] => []
  | c :: cs => c.arranged :: arrangedItems cs

def arrangedEntries : List (String × Content) → List (String × Content)
  | [] => []
  | (k, c) :: es => (k, c.arranged) :: arrangedEntries es

end

theorem arrangedItems_eq_map (items : List Content) : arrangedItems items = items.map arranged := by
  induction items with
  | nil => rfl
  | cons c cs ih => rw [arrangedItems, ih, List.map_cons]

theorem arrangedEntries_eq_map (entries : List (String × Content)) :
    arrangedEntries entries = entries.map fun e => (e.1, e.2.arranged) := by
  induction entries with
  | nil => rfl
  | cons e es ih => rw [arrangedEntries, ih, List.map_cons]

end Content

-- ---------------------------------------------------------------------------
-- Entries in the order of their keys
-- ---------------------------------------------------------------------------

namespace Assoc

variable {α : Type} {entries others : List (String × α)}

theorem eq_of_key_eq (hkeys : (keys entries).Nodup) {e o : String × α} (he : e ∈ entries)
    (ho : o ∈ entries) (h : e.1 = o.1) : e = o :=
  List.inj_on_of_nodup_map hkeys he ho h

theorem mergeSort_eq_iff_perm (hkeys : (keys entries).Nodup) :
    entries.mergeSort (fun a b => decide (¬ b.1 < a.1)) =
      others.mergeSort (fun a b => decide (¬ b.1 < a.1)) ↔ entries.Perm others := by
  have hsorted (es : List (String × α)) :
      (es.mergeSort fun a b => decide (¬ b.1 < a.1)).Pairwise fun a b => a.1 ≤ b.1 := by
    refine (List.pairwise_mergeSort (fun a b c hab hbc => ?_)
      (fun a b => ?_) es).imp fun {a b} h => ?_
    · simp only [decide_eq_true_eq, String.not_lt] at hab hbc ⊢
      exact String.le_trans hab hbc
    · simp only [Bool.or_eq_true, decide_eq_true_eq, String.not_lt]
      exact String.le_total ..
    · simpa only [decide_eq_true_eq, String.not_lt] using h
  constructor
  · intro h
    exact (List.mergeSort_perm entries _).symm.trans (h ▸ List.mergeSort_perm others _)
  · intro h
    have hperm : (entries.mergeSort fun a b => decide (¬ b.1 < a.1)).Perm
        (others.mergeSort fun a b => decide (¬ b.1 < a.1)) :=
      (List.mergeSort_perm ..).trans (h.trans (List.mergeSort_perm ..).symm)
    refine hperm.eq_of_pairwise (fun a b ha hb hab hba => ?_) (hsorted entries) (hsorted others)
    have hb := hperm.mem_iff.2 hb
    exact eq_of_key_eq hkeys (List.mem_mergeSort.1 ha) (List.mem_mergeSort.1 hb)
      (String.le_antisymm hab hba)

end Assoc

-- ---------------------------------------------------------------------------
-- Permuted contents
-- ---------------------------------------------------------------------------

namespace Content.Permuted

variable {c d : Content}

theorem arranged_eq (h : Permuted c d) : c.arranged = d.arranged := by
  induction h with
  | @entries es os hkeys h =>
    have hkeys' : (Assoc.keys (es.map fun e => (e.1, e.2.arranged))).Nodup := by
      rwa [Assoc.keys, List.map_map]
    rw [arranged, arranged, arrangedEntries_eq_map, arrangedEntries_eq_map,
      (Assoc.mergeSort_eq_iff_perm hkeys').2 (h.map _)]
  | item before after _ ih =>
    simp only [arranged, arrangedItems_eq_map, List.map_append, List.map_cons, ih]
  | value key before after _ ih =>
    simp only [arranged, arrangedEntries_eq_map, List.map_append, List.map_cons, ih]

theorem floatFree (h : Permuted c d) (hc : c.FloatFree) : d.FloatFree := by
  induction h with
  | entries _ h =>
    cases hc with
    | map hc => exact .map fun e he => hc e (h.mem_iff.2 he)
  | @item c d before after _ ih =>
    cases hc with
    | slice hc =>
      refine .slice fun x hx => ?_
      rcases List.mem_append.1 hx with hx | hx
      · exact hc x (List.mem_append_left _ hx)
      · rcases List.mem_cons.1 hx with rfl | hx
        · exact ih (hc c (List.mem_append_right _ List.mem_cons_self))
        · exact hc x (List.mem_append_right _ (List.mem_cons_of_mem _ hx))
  | @value c d key before after _ ih =>
    cases hc with
    | map hc =>
      refine .map fun e he => ?_
      rcases List.mem_append.1 he with he | he
      · exact hc e (List.mem_append_left _ he)
      · rcases List.mem_cons.1 he with rfl | he
        · exact ih (hc (key, c) (List.mem_append_right _ List.mem_cons_self))
        · exact hc e (List.mem_append_right _ (List.mem_cons_of_mem _ he))

theorem arranged_eq_of_steps (h : Relation.ReflTransGen Permuted c d) :
    c.arranged = d.arranged := by
  induction h with
  | refl => rfl
  | tail _ h ih => exact ih.trans h.arranged_eq

theorem floatFree_of_steps (h : Relation.ReflTransGen Permuted c d) (hc : c.FloatFree) :
    d.FloatFree := by
  induction h with
  | refl => exact hc
  | tail _ h ih => exact h.floatFree ih

end Content.Permuted

-- ---------------------------------------------------------------------------
-- What nodes hold
-- ---------------------------------------------------------------------------

def Data.arrangedWith (f : Ref → Content) : Data → Content
  | scalar a => .scalar a
  | slice items => .slice (items.map f)
  | map entries => .map (entries.sorted.map fun e => (e.1, f e.2))

theorem Dict.map_sorted_eq_iff_perm {f : Ref → Content} {d d' : Dict Ref} :
    (d.sorted.map fun e => (e.1, f e.2)) = (d'.sorted.map fun e => (e.1, f e.2)) ↔
      (d.entries.map fun e => (e.1, f e.2)).Perm (d'.entries.map fun e => (e.1, f e.2)) := by
  have hkeys : (Assoc.keys (d.entries.map fun e => (e.1, f e.2))).Nodup := by
    rw [Assoc.keys, List.map_map]
    exact d.nodup
  rw [map_sorted, map_sorted, Assoc.mergeSort_eq_iff_perm hkeys]

theorem Dict.size_eq_of_sorted {d d' : Dict Ref}
    (h : d.sorted.map Prod.fst = d'.sorted.map Prod.fst) : d.size = d'.size := by
  have hlength := congrArg List.length h
  rwa [List.length_map, List.length_map, sorted, sorted, List.length_mergeSort,
    List.length_mergeSort] at hlength

namespace Store

variable {s : Store} {r c : Ref}

def arranged (s : Store) (r : Ref) : Content := (s.content r).arranged

theorem Grounded.arranged_eq (h : s.Grounded r) :
    s.arranged r = (s.data r).arrangedWith s.arranged := by
  rw [arranged, h.content_eq]
  cases s.data r with
  | scalar => rfl
  | slice items =>
    rw [Data.contentWith, Content.arranged, Content.arrangedItems_eq_map, List.map_map]
    rfl
  | map d =>
    rw [Data.contentWith, Content.arranged, Content.arrangedEntries_eq_map, List.map_map]
    exact congrArg Content.map (d.map_sorted s.arranged).symm

/-- What is free of floating point numbers is no such number, and its parts are free of them. -/
theorem Grounded.floatFree (h : s.Grounded r) (hfree : (s.content r).FloatFree) :
    (∀ x, s.data r ≠ .scalar (.float x)) ∧ ∀ c, s.Part c r → (s.content c).FloatFree := by
  rw [h.content_eq] at hfree
  have hpart (c : Ref) : s.Part c r ↔ c ∈ (s.data r).children := Iff.rfl
  simp only [hpart]
  cases hd : s.data r with
  | scalar a =>
    rw [hd] at hfree
    cases hfree with
    | scalar hfree =>
      exact ⟨fun x hx => hfree x (Data.scalar.inj hx), fun c hc => absurd hc List.not_mem_nil⟩
  | slice items =>
    rw [hd] at hfree
    cases hfree with
    | slice hfree =>
      exact ⟨fun _ => Data.noConfusion, fun c hc => hfree _ (List.mem_map_of_mem hc)⟩
  | map d =>
    rw [hd] at hfree
    cases hfree with
    | map hfree =>
      refine ⟨fun _ => Data.noConfusion, fun c hc => ?_⟩
      obtain ⟨e, he, rfl⟩ := List.mem_map.1 hc
      exact hfree _ (List.mem_map_of_mem (f := fun e => (e.1, s.content e.2)) he)

end Store

end DocSelect
