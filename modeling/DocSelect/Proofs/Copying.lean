import DocSelect.Proofs.Alike.Store

/-!
# What copies hold

A copy holds what its original holds. The tree that is planted has no key twice in a map, since it
was read from a store, so that the maps of the copy have its entries.
-/
namespace DocSelect

-- ---------------------------------------------------------------------------
-- What nodes hold
-- ---------------------------------------------------------------------------

def Data.contentWith (f : Ref → Content) : Data → Content
  | scalar a => .scalar a
  | slice items => .slice (items.map f)
  | map entries => .map (entries.entries.map fun e => (e.1, f e.2))

theorem Data.contentWith_congr {d : Data} {f g : Ref → Content}
    (h : ∀ c ∈ d.children, f c = g c) : d.contentWith f = d.contentWith g := by
  cases d with
  | scalar => rfl
  | slice items => exact congrArg Content.slice (List.map_congr_left h)
  | map entries =>
    refine congrArg Content.map (List.map_congr_left fun e he => ?_)
    rw [h e.2 (List.mem_map.2 ⟨e, he, rfl⟩)]

theorem forall₂_of_map_eq {α β γ : Type} {f : α → γ} {g : β → γ} {xs : List α}
    {ys : List β} (h : xs.map f = ys.map g) :
    List.Forall₂ (fun x y => x ∈ xs ∧ y ∈ ys ∧ f x = g y) xs ys := by
  have hsame : List.Forall₂ (fun x y => f x = g y) xs ys := by
    rw [← List.forall₂_map_right_iff, ← List.forall₂_map_left_iff, h]
    exact List.forall₂_refl _
  refine List.forall₂_iff_zip.2 ⟨hsame.length_eq, fun hxy => ?_⟩
  obtain ⟨hx, hy⟩ := List.of_mem_zip hxy
  exact ⟨hx, hy, (List.forall₂_iff_zip.1 hsame).2 hxy⟩

theorem Data.alike_of_contentWith_eq {d d' : Data} {f g : Ref → Content}
    (h : d.contentWith f = d'.contentWith g) :
    d.Alike (fun a b => a ∈ d.children ∧ b ∈ d'.children ∧ f a = g b) d' := by
  cases d <;> cases d' <;> simp only [contentWith, reduceCtorEq, Content.scalar.injEq,
    Content.slice.injEq, Content.map.injEq] at h
  case scalar.scalar a b =>
    rw [h]
    exact .scalar b
  case slice.slice items others => exact .slice (forall₂_of_map_eq h)
  case map.map entries others =>
    refine .map ((forall₂_of_map_eq h).imp fun e e' he => ?_)
    obtain ⟨hkey, hvalue⟩ := Prod.mk.inj he.2.2
    exact ⟨hkey, List.mem_map_of_mem he.1, List.mem_map_of_mem he.2.1, hvalue⟩

theorem Tree.contents_eq_map (ts : List Tree) : contents ts = ts.map content := by
  induction ts with
  | nil => rfl
  | cons t ts ih => rw [contents, ih, List.map_cons]

theorem Tree.entryContents_eq_map (es : List (String × Tree)) :
    entryContents es = es.map fun e => (e.1, e.2.content) := by
  induction es with
  | nil => rfl
  | cons e es ih => rw [entryContents, ih, List.map_cons]

namespace Store

variable {s t : Store} {r : Ref} {c : Content}

theorem Grounded.content_eq (h : s.Grounded r) :
    s.content r = (s.data r).contentWith s.content := by
  rw [content, h.tree_eq]
  cases s.data r with
  | scalar => rfl
  | slice items =>
    simp only [Tree.content, Tree.contents_eq_map, List.map_map]
    rfl
  | map entries =>
    simp only [Tree.content, Tree.entryContents_eq_map, List.map_map]
    rfl

/-- The node holds this content, and no path goes down from it without end. -/
structure Holds (s : Store) (r : Ref) (c : Content) : Prop where
  grounded : s.Grounded r
  content_eq : s.content r = c

namespace Holds

theorem scalar {a : Scalar} (h : s.data r = .scalar a) : s.Holds r (.scalar a) := by
  have hg : s.Grounded r := ⟨r, fun c hc => by simp [Part, h, Data.children] at hc⟩
  exact ⟨hg, by rw [hg.content_eq, h, Data.contentWith]⟩

theorem data_eq {a : Scalar} (h : s.Holds r (.scalar a)) : s.data r = .scalar a := by
  have heq := h.content_eq
  rw [h.grounded.content_eq] at heq
  cases hd : s.data r <;> rw [hd] at heq <;> cases heq
  rfl

theorem slice {items : List Ref} {cs : List Content} (h : s.data r = .slice items)
    (hp : List.Forall₂ s.Holds items cs) : s.Holds r (.slice cs) := by
  have hg : s.Grounded r := by
    refine ⟨r, fun c hc => ?_⟩
    rw [Part, h, Data.children] at hc
    obtain ⟨_, -, hc⟩ := exists_of_forall₂_left hp hc
    exact hc.grounded
  have hmap : items.map s.content = cs := by
    clear h hg
    induction hp with
    | nil => rfl
    | cons hc _ ih => exact congrArg₂ List.cons hc.content_eq ih
  exact ⟨hg, by rw [hg.content_eq, h, Data.contentWith, hmap]⟩

theorem map {entries : Dict Ref} {es : List (String × Content)} (h : s.data r = .map entries)
    (hp : Assoc.Alike s.Holds entries.entries es) : s.Holds r (.map es) := by
  have hg : s.Grounded r := by
    refine ⟨r, fun c hc => ?_⟩
    rw [Part, h, Data.children, Dict.values] at hc
    obtain ⟨_, -, hc⟩ := exists_of_forall₂_left hp.values hc
    exact hc.grounded
  have hmap : (entries.entries.map fun e => (e.1, s.content e.2)) = es := by
    clear h hg
    generalize entries.entries = rs at hp
    induction hp with
    | nil => rfl
    | cons hc _ ih => exact congrArg₂ List.cons (Prod.ext hc.1 hc.2.content_eq) ih
  exact ⟨hg, by rw [hg.content_eq, h, Data.contentWith, hmap]⟩

theorem of_data_eq (kept : Ref → Prop) (h : s.Holds r c) (hr : kept r)
    (hpart : ∀ {a c : Ref}, kept a → s.Part c a → kept c)
    (hdata : ∀ {a : Ref}, kept a → t.data a = s.data a) : t.Holds r c := by
  obtain ⟨hg, rfl⟩ := h
  refine ⟨hg.of_data_eq kept hr hpart hdata, ?_⟩
  induction hg with
  | intro r hacc ih =>
    have hg : s.Grounded r := ⟨r, hacc⟩
    rw [hg.content_eq, (hg.of_data_eq kept hr hpart hdata).content_eq, hdata hr]
    exact Data.contentWith_congr fun c hc => ih c hc (hpart hr hc)

end Holds

end Store

-- ---------------------------------------------------------------------------
-- Trees without repeated keys
-- ---------------------------------------------------------------------------

namespace Tree

mutual

def Proper : Tree → Prop
  | scalar .. => True
  | slice _ _ items => ProperItems items
  | map _ _ entries => (Assoc.keys entries).Nodup ∧ ProperEntries entries

def ProperItems : List Tree → Prop
  | [] => True
  | t :: ts => t.Proper ∧ ProperItems ts

def ProperEntries : List (String × Tree) → Prop
  | [] => True
  | (_, t) :: es => t.Proper ∧ ProperEntries es

end

theorem properItems_of_forall {ts : List Tree} (h : ∀ t ∈ ts, t.Proper) : ProperItems ts := by
  induction ts with
  | nil => trivial
  | cons t ts ih =>
    exact ⟨h t List.mem_cons_self, ih fun u hu => h u (List.mem_cons_of_mem _ hu)⟩

theorem properEntries_of_forall {es : List (String × Tree)} (h : ∀ e ∈ es, e.2.Proper) :
    ProperEntries es := by
  induction es with
  | nil => trivial
  | cons e es ih =>
    exact ⟨h e List.mem_cons_self, ih fun u hu => h u (List.mem_cons_of_mem _ hu)⟩

end Tree

theorem Store.proper_treeWithin (s : Store) (fuel : Nat) (r : Ref) :
    (s.treeWithin fuel r).Proper := by
  induction fuel generalizing r with
  | zero => trivial
  | succ fuel ih =>
    unfold Store.treeWithin
    split
    · trivial
    · refine Tree.properItems_of_forall fun t ht => ?_
      obtain ⟨c, -, rfl⟩ := List.mem_map.1 ht
      exact ih c
    · rename_i entries _
      refine ⟨?_, Tree.properEntries_of_forall fun e he => ?_⟩
      · rw [Assoc.keys, List.map_map]
        exact entries.nodup
      · obtain ⟨c, -, rfl⟩ := List.mem_map.1 he
        exact ih c.2

theorem Assoc.insert_of_not_mem {α : Type} {key : String} {value : α}
    {entries : List (String × α)} (h : key ∉ keys entries) :
    insert key value entries = entries ++ [(key, value)] := by
  induction entries with
  | nil => rfl
  | cons e rest ih =>
    simp only [keys, List.map_cons, List.mem_cons, not_or] at h
    simp only [insert, Ne.symm h.1, if_false, ih h.2, List.cons_append]

theorem Dict.entries_ofList {α : Type} {entries : List (String × α)}
    (h : (Assoc.keys entries).Nodup) : (ofList entries).entries = entries := by
  have hall {d : Dict α} (entries : List (String × α))
      (h : (Assoc.keys (d.entries ++ entries)).Nodup) :
      (d.insertAll entries).entries = d.entries ++ entries := by
    induction entries generalizing d with
    | nil => simp [insertAll]
    | cons e rest ih =>
      have hnew : e.1 ∉ Assoc.keys d.entries := by
        simp only [Assoc.keys, List.map_append, List.map_cons, List.nodup_append] at h
        exact fun hm => h.2.2 _ hm _ List.mem_cons_self rfl
      have hins : (d.insert e.1 e.2).entries = d.entries ++ [e] := Assoc.insert_of_not_mem hnew
      have hrest := ih (d := d.insert e.1 e.2) (by rwa [hins, List.append_assoc])
      rw [hins, List.append_assoc] at hrest
      exact hrest
  exact hall (d := Dict.empty) entries h

-- ---------------------------------------------------------------------------
-- Copies
-- ---------------------------------------------------------------------------

namespace Store

section
variable {s t u v : Store} {roots others : List Ref}

theorem KeepsNew.first (h : KeepsNew s v u) (hv : Grown t v others) :
    KeepsNew s t u := by
  intro r hr
  rw [h r ⟨hr.1, Nat.lt_of_lt_of_le hr.2 hv.size_le⟩, data, hv.node_old hr.2, data]

theorem KeepsNew.second (h : KeepsNew s v u) (ht : Grown s t roots) : KeepsNew t v u :=
  fun r hr => h r ⟨Nat.le_trans ht.size_le hr.1, hr.2⟩

theorem KeepsNew.of_add {n : Node} (h : KeepsNew s (t.add n).2 u) (ht : Grown s t roots) :
    KeepsNew s t u ∧ u.data (t.add n).1 = n.data := by
  refine ⟨fun r hr => ?_, ?_⟩
  · rw [h r ⟨hr.1, by rw [size_add]; exact Nat.lt_succ_of_lt hr.2⟩, data,
      t.node_add_of_lt n hr.2, data]
  · have hnew : Fresh s (t.add n).2 (t.add n).1 :=
      ⟨ht.size_le, by rw [size_add]; exact Nat.lt_succ_self _⟩
    rw [h _ hnew, data, node_add_self]

end

theorem keys_plantEntries (es : List (String × Tree)) (s : Store) :
    Assoc.keys (s.plantEntries es).1 = Assoc.keys es := by
  induction es generalizing s with
  | nil => rfl
  | cons e es ih => exact congrArg (e.1 :: ·) (ih _)

mutual

/-- The node that is planted for a tree holds the tree's content, as long as the new nodes stay. -/
theorem holds_plant : (t : Tree) → t.Proper → {s u : Store} → KeepsNew s (s.plant t).2 u →
    u.Holds (s.plant t).1 t.content
  | .scalar .., _, s, _, h => .scalar (h.of_add (.refl s)).2
  | .slice _ _ items, ht, s, _, h =>
    have hadd := h.of_add (grown_plantItems items s)
    .slice hadd.2 (holds_plantItems items ht hadd.1)
  | .map _ _ entries, ht, s, _, h => by
    have hadd := h.of_add (grown_plantEntries entries s)
    refine .map hadd.2 ?_
    rw [Dict.entries_ofList ((keys_plantEntries entries s).symm ▸ ht.1)]
    exact holds_plantEntries entries ht.2 hadd.1

theorem holds_plantItems : (ts : List Tree) → Tree.ProperItems ts → {s u : Store} →
    KeepsNew s (s.plantItems ts).2 u →
    List.Forall₂ u.Holds (s.plantItems ts).1 (Tree.contents ts)
  | [], _, _, _, _ => .nil
  | t :: ts, ht, s, _, h =>
    have hgrown := grown_plant t s
    .cons (holds_plant t ht.1 (h.first (grown_plantItems ts _)))
      (holds_plantItems ts ht.2 (h.second hgrown))

theorem holds_plantEntries :
    (es : List (String × Tree)) → Tree.ProperEntries es → {s u : Store} →
    KeepsNew s (s.plantEntries es).2 u →
    Assoc.Alike u.Holds (s.plantEntries es).1 (Tree.entryContents es)
  | [], _, _, _, _ => .nil
  | (_, t) :: es, ht, s, _, h =>
    have hgrown := grown_plant t s
    .cons ⟨rfl, holds_plant t ht.1 (h.first (grown_plantEntries es _))⟩
      (holds_plantEntries es ht.2 (h.second hgrown))

end

theorem holds_copyData {s u : Store} {r target : Ref} (h : KeepsNew s (s.copyData r).2 u)
    (hdata : u.data target = (s.copyData r).1) : u.Holds target (s.content r) := by
  have hproper := s.proper_treeWithin (s.size + 1) r
  rw [content]
  unfold copyData at h hdata
  change (s.tree r).Proper at hproper
  generalize s.tree r = t at h hdata hproper ⊢
  cases t with
  | scalar => exact .scalar hdata
  | slice _ _ items => exact .slice hdata (holds_plantItems items hproper h)
  | map _ _ entries =>
    refine .map hdata ?_
    rw [Dict.entries_ofList ((keys_plantEntries entries s).symm ▸ hproper.1)]
    exact holds_plantEntries entries hproper.2 h

/-- A written node holds what the value held before, whatever the value may have been part of. -/
theorem holds_set_self (s : Store) {target : Ref} (htarget : target.index < s.size) (value : Ref) :
    (s.set target value).Holds target (s.content value) := by
  obtain ⟨roots, hg, -⟩ := grown_copyData s value
  exact holds_copyData (.setData htarget _ _)
    (data_setData_self _ _ (Nat.lt_of_lt_of_le htarget hg.size_le))

-- ---------------------------------------------------------------------------
-- The same structure
-- ---------------------------------------------------------------------------

/-- Nodes of two stores have the same structure if they can be paired, with nodes below them, so
that the data of paired nodes agree: the same scalars, paired items in order, the same keys in order
with paired values. -/
def Resembles (s t : Store) (a b : Ref) : Prop :=
  ∃ m : Pairing, m a b ∧ ∀ c d, m c d → (s.data c).Alike m (t.data d)

theorem Holds.resembles {s t : Store} {a b : Ref} {c : Content} (h : s.Holds a c)
    (h' : t.Holds b c) : s.Resembles t a b := by
  refine ⟨fun a b => s.Grounded a ∧ t.Grounded b ∧ s.content a = t.content b,
    ⟨h.grounded, h'.grounded, h.content_eq.trans h'.content_eq.symm⟩, ?_⟩
  rintro a b ⟨ha, hb, heq⟩
  rw [ha.content_eq, hb.content_eq] at heq
  exact (Data.alike_of_contentWith_eq heq).mono fun _ _ h => ⟨ha.part h.1, hb.part h.2.1, h.2.2⟩

end Store

end DocSelect
