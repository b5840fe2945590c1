import DocSelect.Proofs.Soundness.Copy
import DocSelect.Value.Path

/-!
# Pre-order

What is below a node is listed in pre-order: each part of the node, in the order in which the node
has them, followed by what is below that part. An entry of the list is the path to a node and the
node itself. No path is listed twice, and in the value of a tree no node is.
-/
namespace DocSelect

-- ---------------------------------------------------------------------------
-- Parts in their slots
-- ---------------------------------------------------------------------------

namespace Data

def placed : Data → List (Slot × Ref)
  | scalar _ => []
  | slice items => items.zipIdx.map fun p => (.position p.2, p.1)
  | map entries => entries.entries.map fun e => (.key e.1, e.2)

variable {d : Data} {slot : Slot} {c : Ref}

theorem mem_placed_iff : (slot, c) ∈ d.placed ↔ d.part? slot = some c := by
  cases d with
  | scalar => simp [placed, part?]
  | slice items =>
    cases slot <;> simp [placed, part?, List.mem_zipIdx_iff_getElem?]
  | map entries =>
    cases slot with
    | position => simp [placed, part?]
    | key name =>
      simp only [placed, part?, List.mem_map, Prod.mk.injEq, Slot.key.injEq]
      constructor
      · rintro ⟨e, he, rfl, rfl⟩
        exact entries.find?_of_mem he
      · intro h
        exact ⟨(name, c), entries.mem_of_find? h, rfl, rfl⟩

theorem map_snd_placed (d : Data) : d.placed.map Prod.snd = d.children := by
  cases d with
  | scalar => rfl
  | slice items =>
    rw [placed, List.map_map]
    exact List.zipIdx_map_fst 0 items
  | map entries =>
    rw [placed, List.map_map]
    rfl

theorem nodup_slots (d : Data) : (d.placed.map Prod.fst).Nodup := by
  cases d with
  | scalar => exact List.nodup_nil
  | slice items =>
    have hslots : (slice items).placed.map Prod.fst =
        (List.range' 0 items.length).map Slot.position := by
      rw [placed, List.map_map, ← List.zipIdx_map_snd 0 items, List.map_map]
      rfl
    rw [hslots]
    exact List.Nodup.map (fun i j h => Slot.position.inj h) List.nodup_range'
  | map entries =>
    have hslots : (map entries).placed.map Prod.fst = entries.keys.map Slot.key := by
      rw [placed, Dict.keys, Assoc.keys, List.map_map, List.map_map]
      rfl
    rw [hslots]
    exact entries.nodup.map fun i j h => Slot.key.inj h

end Data

-- ---------------------------------------------------------------------------
-- What is below a node
-- ---------------------------------------------------------------------------

def Slot.then (slot : Slot) (entry : List Slot × Ref) : List Slot × Ref :=
  (slot :: entry.1, entry.2)

namespace Tree

mutual

def descendants : Tree → List (List Slot × Ref)
  | scalar .. => []
  | slice _ _ items => descendantItems 0 items
  | map _ _ entries => descendantEntries entries

def descendantItems (i : Nat) : List Tree → List (List Slot × Ref)
  | [] => []
  | t :: ts =>
    ([.position i], t.ref) :: t.descendants.map (Slot.position i).then ++ descendantItems (i + 1) ts

def descendantEntries : List (String × Tree) → List (List Slot × Ref)
  | [] => []
  | (k, t) :: es => ([.key k], t.ref) :: t.descendants.map (Slot.key k).then ++ descendantEntries es

end

end Tree

namespace Store

variable {s : Store} {r c : Ref} {path path' : List Slot}

def descendants (s : Store) (r : Ref) : List (List Slot × Ref) := (s.tree r).descendants

def listing (s : Store) (p : Slot × Ref) : List (List Slot × Ref) :=
  ([p.1], p.2) :: (s.descendants p.2).map p.1.then

theorem exists_cons_of_mem_listing {p : Slot × Ref} {x : List Slot × Ref}
    (h : x ∈ s.listing p) : ∃ path, x.1 = p.1 :: path := by
  rcases List.mem_cons.1 h with rfl | h
  · exact ⟨[], rfl⟩
  · obtain ⟨q, -, rfl⟩ := List.mem_map.1 h
    exact ⟨q.1, rfl⟩

theorem Grounded.descendants_eq (h : s.Grounded r) :
    s.descendants r = (s.data r).placed.flatMap s.listing := by
  have hitems (i : Nat) (items : List Ref) : Tree.descendantItems i (items.map s.tree) =
      ((items.zipIdx i).map fun p => (Slot.position p.2, p.1)).flatMap s.listing := by
    induction items generalizing i with
    | nil => rfl
    | cons c cs ih =>
      rw [List.map_cons, Tree.descendantItems, ih, ref_tree, List.zipIdx_cons, List.map_cons,
        List.flatMap_cons]
      rfl
  have hentries (entries : List (String × Ref)) :
      Tree.descendantEntries (entries.map fun e => (e.1, s.tree e.2)) =
        (entries.map fun e => (Slot.key e.1, e.2)).flatMap s.listing := by
    induction entries with
    | nil => rfl
    | cons e es ih =>
      rw [List.map_cons, Tree.descendantEntries, ih, ref_tree, List.map_cons, List.flatMap_cons]
      rfl
  rw [descendants, h.tree_eq]
  cases s.data r with
  | scalar => rfl
  | slice items => exact hitems 0 items
  | map entries => exact hentries entries.entries

theorem Grounded.mem_descendants_iff (h : s.Grounded r) :
    (path, c) ∈ s.descendants r ↔ path ≠ [] ∧ s.follow? r path = some c := by
  induction h generalizing path with
  | intro r hparts ih =>
    rw [Grounded.descendants_eq ⟨r, hparts⟩, List.mem_flatMap]
    constructor
    · rintro ⟨⟨slot, d⟩, hplaced, hmem⟩
      have hd : s.part? r slot = some d := Data.mem_placed_iff.1 hplaced
      have hpart : s.Part d r := Data.mem_children_iff.2 ⟨slot, hd⟩
      rcases List.mem_cons.1 hmem with heq | hmem
      · cases heq
        exact ⟨List.cons_ne_nil _ _, by rw [follow?, hd]; rfl⟩
      · obtain ⟨⟨rest, c⟩, hrest, heq⟩ := List.mem_map.1 hmem
        cases heq
        refine ⟨List.cons_ne_nil _ _, ?_⟩
        rw [follow?, hd]
        exact ((ih d hpart).1 hrest).2
    · rintro ⟨hne, hpath⟩
      obtain ⟨slot, rest, rfl⟩ := List.exists_cons_of_ne_nil hne
      obtain ⟨d, hd, hrest⟩ := Option.bind_eq_some_iff.1 hpath
      refine ⟨(slot, d), Data.mem_placed_iff.2 hd, ?_⟩
      by_cases hnil : rest = []
      · subst hnil
        cases hrest
        exact List.mem_cons_self
      · have hpart : s.Part d r := Data.mem_children_iff.2 ⟨slot, hd⟩
        exact List.mem_cons_of_mem _ (List.mem_map.2
          ⟨(rest, c), (ih d hpart).2 ⟨hnil, hrest⟩, rfl⟩)

/-- The order of paths: a node is before those below it, and all that is in one slot before what is
in a later one. -/
inductive Before (s : Store) : Ref → List Slot → List Slot → Prop
  | above (r : Ref) (slot : Slot) (path : List Slot) : Before s r [] (slot :: path)
  | beside {r : Ref} {slot slot' : Slot} (path path' : List Slot)
    (h : [slot, slot'].Sublist ((s.data r).placed.map Prod.fst)) : Before s r (slot :: path)
      (slot' :: path')
  | inside {r c : Ref} {slot : Slot} {path path' : List Slot} (hc : s.part? r slot = some c)
    (h : Before s c path path') : Before s r (slot :: path) (slot :: path')

theorem Grounded.descendants_sorted (h : s.Grounded r) :
    (s.descendants r).Pairwise fun p q => s.Before r p.1 q.1 := by
  induction h with
  | intro r hparts ih =>
    rw [Grounded.descendants_eq ⟨r, hparts⟩, List.pairwise_flatMap]
    constructor
    · rintro ⟨slot, d⟩ hplaced
      have hd : s.part? r slot = some d := Data.mem_placed_iff.1 hplaced
      have hpart : s.Part d r := Data.mem_children_iff.2 ⟨slot, hd⟩
      refine List.pairwise_cons.2 ⟨fun q hq => ?_, ?_⟩
      · obtain ⟨⟨rest, c⟩, hrest, rfl⟩ := List.mem_map.1 hq
        obtain ⟨next, rest, rfl⟩ :=
          List.exists_cons_of_ne_nil ((Grounded.mem_descendants_iff (hparts d hpart)).1 hrest).1
        exact .inside hd (.above ..)
      · exact List.pairwise_map.2 ((ih d hpart).imp fun h => .inside hd h)
    · refine List.pairwise_iff_forall_sublist.2 fun {p q} hpq x hx y hy => ?_
      have hslots : [p.1, q.1].Sublist ((s.data r).placed.map Prod.fst) := hpq.map Prod.fst
      obtain ⟨path, hpath⟩ := exists_cons_of_mem_listing hx
      obtain ⟨path', hpath'⟩ := exists_cons_of_mem_listing hy
      rw [hpath, hpath']
      exact .beside path path' hslots

theorem Before.ne (h : s.Before r path path') : path ≠ path' := by
  induction h with
  | above => exact fun heq => by cases heq
  | @beside r slot slot' path path' h =>
    intro heq
    have hnodup := h.nodup (s.data r).nodup_slots
    rw [(List.cons.inj heq).1] at hnodup
    exact absurd hnodup (by simp)
  | inside _ _ ih => exact fun heq => ih (List.cons.inj heq).2

theorem Grounded.nodup_paths (h : s.Grounded r) : ((s.descendants r).map Prod.fst).Nodup :=
  List.pairwise_map.2 (h.descendants_sorted.imp Before.ne)

def TreeShaped (s : Store) (r : Ref) : Prop := ∀ {path path' : List Slot} {c : Ref},
  s.follow? r path = some c → s.follow? r path' = some c → path = path'

theorem Grounded.nodup_descendants (h : s.Grounded r) (hshape : s.TreeShaped r) :
    ((s.descendants r).map Prod.snd).Nodup := by
  have hnodup : (s.descendants r).Nodup := List.Nodup.of_map _ h.nodup_paths
  refine List.pairwise_map.2 (hnodup.imp_of_mem fun {p q} hp hq hne heq => hne ?_)
  obtain ⟨path, c⟩ := p
  obtain ⟨path', c'⟩ := q
  cases heq
  rw [hshape (h.mem_descendants_iff.1 hp).2 (h.mem_descendants_iff.1 hq).2]

-- ---------------------------------------------------------------------------
-- Descents
-- ---------------------------------------------------------------------------

/-- Whether a descent takes what a path leads to: for the slot that it stands in, or for being a
scalar. -/
def takes (s : Store) (target : DescentTarget) (entry : List Slot × Ref) : Bool :=
  match target, entry.1.getLast? with
  | .key name, some (.key k) => k = name
  | .index n, some (.position i) => n.toInt = i
  | .scalars, _ => s.isScalar entry.2
  | _, _ => false

theorem isScalar_tree (s : Store) (r : Ref) : (s.tree r).isScalar = s.isScalar r := by
  rw [tree, treeWithin, isScalar, kind]
  cases s.data r <;> first | rfl | skip
  rename_i a
  cases a <;> rfl

theorem Grounded.found_eq (h : s.Grounded r) (target : DescentTarget) :
    (s.tree r).found target = (s.data r).placed.flatMap fun p =>
      (if s.takes target ([p.1], p.2) then [p.2] else []) ++ (s.tree p.2).found target := by
  have hitems (i : Nat) (items : List Ref) : Tree.foundItems target i (items.map s.tree) =
      ((items.zipIdx i).map fun p => (Slot.position p.2, p.1)).flatMap fun p =>
        (if s.takes target ([p.1], p.2) then [p.2] else []) ++ (s.tree p.2).found target := by
    induction items generalizing i with
    | nil => rfl
    | cons c cs ih =>
      rw [List.map_cons, Tree.foundItems.eq_def, List.zipIdx_cons, List.map_cons,
        List.flatMap_cons, ← ih]
      dsimp only
      rw [ref_tree, isScalar_tree]
      cases target <;> rfl
  have hentries (entries : List (String × Ref)) :
      Tree.foundEntries target (entries.map fun e => (e.1, s.tree e.2)) =
        (entries.map fun e => (Slot.key e.1, e.2)).flatMap fun p =>
          (if s.takes target ([p.1], p.2) then [p.2] else []) ++ (s.tree p.2).found target := by
    induction entries with
    | nil => rfl
    | cons e es ih =>
      rw [List.map_cons, Tree.foundEntries.eq_def, List.map_cons, List.flatMap_cons, ← ih]
      dsimp only
      rw [ref_tree, isScalar_tree]
      cases target <;> rfl
  rw [h.tree_eq]
  cases s.data r with
  | scalar => rfl
  | slice items => exact hitems 0 items
  | map entries => exact hentries entries.entries

theorem Grounded.found_eq_filter (h : s.Grounded r) (target : DescentTarget) :
    (s.tree r).found target = ((s.descendants r).filter (s.takes target)).map Prod.snd := by
  induction h with
  | intro r hparts ih =>
    have hr : s.Grounded r := ⟨r, hparts⟩
    rw [hr.found_eq, hr.descendants_eq, List.filter_flatMap, List.map_flatMap]
    refine List.flatMap_congr fun ⟨slot, c⟩ hplaced => ?_
    have hpart : s.Part c r := Data.mem_children_iff.2 ⟨slot, Data.mem_placed_iff.1 hplaced⟩
    -- the slot that counts is the last one, which is the same further up
    have htakes : ∀ entry ∈ s.descendants c, s.takes target (slot.then entry) =
        s.takes target entry := by
      intro entry hentry
      obtain ⟨next, rest, hpath⟩ :=
        List.exists_cons_of_ne_nil ((Grounded.mem_descendants_iff (hparts c hpart)).1 hentry).1
      simp only [takes, Slot.then, hpath, List.getLast?_cons_cons]
    have hbelow : ((s.descendants c).map slot.then).filter (s.takes target) =
        ((s.descendants c).filter (s.takes target)).map slot.then := by
      rw [List.filter_map]
      exact congrArg _ (List.filter_congr htakes)
    rw [ih c hpart, listing, List.filter_cons, hbelow]
    split
    · rw [List.map_cons, List.map_map]
      rfl
    · rw [List.map_map]
      rfl

end Store

end DocSelect
