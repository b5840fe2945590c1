import DocSelect.Proofs.Equality.Copies
import DocSelect.Proofs.Mutation
import DocSelect.Proofs.Soundness.Copy

/-!
# Notes on copies

A copy has the content and the marks of its original at every path. Its notes are those of the
original, though, and not copies of them: they name the same nodes. So what a copy shares with its
original is what the notes at or below the original lead to, and nothing else. Changing a node that
was there never changes which notes the copy has, but it may change what they hold.
-/
namespace DocSelect

-- ---------------------------------------------------------------------------
-- Paths of trees
-- ---------------------------------------------------------------------------

namespace Tree

def part? : Tree → Slot → Option Tree
  | slice _ _ items, .position i => items[i]?
  | map _ _ entries, .key name => Assoc.find? name entries
  | _, _ => none

def follow? : Tree → List Slot → Option Tree
  | t, [] => some t
  | t, slot :: path => (t.part? slot).bind (follow? · path)

end Tree

theorem rel_getElem? {α β : Type} {R : α → β → Prop} {xs : List α} {ys : List β}
    (h : List.Forall₂ R xs ys) (i : Nat) : Option.Rel R xs[i]? ys[i]? := by
  induction h generalizing i with
  | nil => exact .none
  | cons hxy _ ih =>
    cases i with
    | zero => exact .some hxy
    | succ i => exact ih i

theorem Assoc.Alike.rel_find? {α β : Type} {R : α → β → Prop} {es : List (String × α)}
    {es' : List (String × β)} (h : Assoc.Alike R es es') (key : String) :
    Option.Rel R (Assoc.find? key es) (Assoc.find? key es') := by
  rcases h.find? key with ⟨ha, hb⟩ | ⟨a, b, ha, hb, hab⟩ <;> rw [ha, hb]
  · exact .none
  · exact .some hab

namespace Store

variable {s t u v : Store} {q r c n : Ref} {roots others : List Ref} {path : List Slot}

theorem Grounded.part?_tree (h : s.Grounded r) (slot : Slot) :
    (s.tree r).part? slot = (s.part? r slot).map s.tree := by
  rw [h.tree_eq, part?]
  cases s.data r <;> cases slot <;> simp only [Tree.part?, Data.part?, Option.map_none]
  · exact List.getElem?_map
  · exact Assoc.find?_map ..

theorem Grounded.follow?_tree (h : s.Grounded r) (path : List Slot) :
    (s.tree r).follow? path = (s.follow? r path).map s.tree := by
  induction path generalizing r with
  | nil => rfl
  | cons slot path ih =>
    rw [Tree.follow?, Store.follow?, h.part?_tree]
    rcases hpart : s.part? r slot with _ | c
    · rfl
    · exact ih (h.part (Data.mem_children_iff.2 ⟨slot, hpart⟩))

-- ---------------------------------------------------------------------------
-- Marks of copies
-- ---------------------------------------------------------------------------

def KeepsNodes (s s' u : Store) : Prop := ∀ r, Fresh s s' r → u.node r = s'.node r

namespace KeepsNodes

theorem keepsNew (h : KeepsNodes s t u) : KeepsNew s t u := fun r hr => congrArg Node.data (h r hr)

theorem first (h : KeepsNodes s v u) (hv : Grown t v others) : KeepsNodes s t u := fun r hr =>
  (h r ⟨hr.1, Nat.lt_of_lt_of_le hr.2 hv.size_le⟩).trans (hv.node_old hr.2)

theorem second (h : KeepsNodes s v u) (ht : Grown s t roots) : KeepsNodes t v u :=
  fun r hr => h r ⟨Nat.le_trans ht.size_le hr.1, hr.2⟩

theorem of_add {n : Node} (h : KeepsNodes s (t.add n).2 u) (ht : Grown s t roots) :
    KeepsNodes s t u ∧ u.node (t.add n).1 = n := by
  have hself : Fresh s (t.add n).2 (t.add n).1 :=
    ⟨ht.size_le, by rw [size_add]; exact Nat.lt_succ_self _⟩
  refine ⟨fun r hr => ?_, (h _ hself).trans (node_add_self t n)⟩
  rw [h r ⟨hr.1, by rw [size_add]; exact Nat.lt_succ_of_lt hr.2⟩, t.node_add_of_lt n hr.2]

end KeepsNodes

def Shows (u : Store) (r : Ref) (t : Tree) : Prop := ∀ path,
  (u.follow? r path).map (fun q => (u.content q, u.marks q)) =
    (t.follow? path).map fun t => (t.content, t.marks)

theorem Shows.intro {t : Tree} {node : Node} (hnode : u.node r = node)
    (hcontent : u.content r = t.content) (hmarks : node.marks = t.marks)
    (hparts : ∀ slot, Option.Rel u.Shows (node.data.part? slot) (t.part? slot)) :
    u.Shows r t := by
  subst hnode
  intro path
  cases path with
  | nil => exact congrArg some (Prod.ext hcontent hmarks)
  | cons slot path =>
    have hslot : Option.Rel u.Shows (u.part? r slot) (t.part? slot) := hparts slot
    rw [Store.follow?, Tree.follow?]
    generalize u.part? r slot = x, t.part? slot = y at hslot ⊢
    cases hslot with
    | some h => exact h path
    | none => rfl

mutual

theorem shows_plant : (t : Tree) → t.Proper → {s u : Store} → KeepsNodes s (s.plant t).2 u →
    u.Shows (s.plant t).1 t
  | .scalar .., ht, s, _, h =>
    .intro (h.of_add (.refl s)).2 (holds_plant _ ht h.keepsNew).content_eq rfl fun _ => .none
  | .slice _ _ items, ht, s, _, h => by
    have ⟨hkept, hnode⟩ := h.of_add (grown_plantItems items s)
    refine .intro hnode (holds_plant _ ht h.keepsNew).content_eq rfl fun slot => ?_
    cases slot with
    | key => exact .none
    | position i => exact rel_getElem? (shows_plantItems items ht hkept) i
  | .map _ _ entries, ht, s, _, h => by
    have ⟨hkept, hnode⟩ := h.of_add (grown_plantEntries entries s)
    refine .intro hnode (holds_plant _ ht h.keepsNew).content_eq rfl fun slot => ?_
    cases slot with
    | key name =>
      have hkeys : (Assoc.keys (s.plantEntries entries).1).Nodup :=
        (keys_plantEntries entries s).symm ▸ ht.1
      have hfind := (shows_plantEntries entries ht.2 hkept).rel_find? name
      rwa [← Dict.entries_ofList hkeys] at hfind
    | position => exact .none

theorem shows_plantItems : (ts : List Tree) → Tree.ProperItems ts → {s u : Store} →
    KeepsNodes s (s.plantItems ts).2 u → List.Forall₂ u.Shows (s.plantItems ts).1 ts
  | [], _, _, _, _ => .nil
  | t :: ts, ht, s, _, h =>
    have hgrown := grown_plant t s
    .cons (shows_plant t ht.1 (h.first (grown_plantItems ts _)))
      (shows_plantItems ts ht.2 (h.second hgrown))

theorem shows_plantEntries :
    (es : List (String × Tree)) → Tree.ProperEntries es → {s u : Store} →
    KeepsNodes s (s.plantEntries es).2 u → Assoc.Alike u.Shows (s.plantEntries es).1 es
  | [], _, _, _, _ => .nil
  | (_, t) :: es, ht, s, _, h =>
    have hgrown := grown_plant t s
    .cons ⟨rfl, shows_plant t ht.1 (h.first (grown_plantEntries es _))⟩
      (shows_plantEntries es ht.2 (h.second hgrown))

end

/-- At every path below a copy are the content and the marks of the original, as long as its nodes
stay. -/
theorem Grounded.deepCopy_shows (h : s.Grounded r) (hu : KeepsNodes s (s.deepCopy r).2 u)
    (path : List Slot) : (u.follow? (s.deepCopy r).1 path).map (fun q => (u.content q, u.marks q)) =
      (s.follow? r path).map fun q => (s.content q, s.marks q) := by
  have hshows : u.Shows (s.deepCopy r).1 (s.tree r) := shows_plant _ (s.proper_treeWithin _ r) hu
  rw [hshows path, h.follow?_tree, Option.map_map]
  exact congrArg (Option.map · _) (funext fun q => Prod.ext rfl (s.marks_tree q))

-- ---------------------------------------------------------------------------
-- What copies share
-- ---------------------------------------------------------------------------

def Link (s : Store) (c r : Ref) : Prop := s.Part c r ∨ c ∈ (s.marks r).notes.values

def Closed (s : Store) : Prop := ∀ r c, s.Link c r → s.Known c

theorem links_of_below (h : Relation.ReflTransGen s.Part q r) : Relation.ReflTransGen s.Link q r :=
  Relation.ReflTransGen.mono (fun _ _ => Or.inl) _ _ h

theorem link_deepCopy_iff (hq : s.Known q) : (s.deepCopy r).2.Link c q ↔ s.Link c q := by
  have hgrown := grown_plant (s.tree r) s
  have hnode : (s.deepCopy r).2.node q = s.node q := hgrown.node_old hq
  simp only [Link, Part, data, marks, hnode]

theorem Closed.reachable_deepCopy_iff (h : s.Closed) (hn : s.Known n) :
    Relation.ReflTransGen (s.deepCopy r).2.Link q n ↔ Relation.ReflTransGen s.Link q n := by
  suffices hboth : ∀ {q}, (Relation.ReflTransGen (s.deepCopy r).2.Link q n →
      Relation.ReflTransGen s.Link q n ∧ s.Known q) ∧
      (Relation.ReflTransGen s.Link q n →
        Relation.ReflTransGen (s.deepCopy r).2.Link q n ∧ s.Known q) from
    ⟨fun hq => (hboth.1 hq).1, fun hq => (hboth.2 hq).1⟩
  refine ⟨fun hq => ?_, fun hq => ?_⟩
  · induction hq using Relation.ReflTransGen.head_induction_on with
    | refl => exact ⟨.refl, hn⟩
    | head hc _ ih =>
      rw [link_deepCopy_iff ih.2] at hc
      exact ⟨.head hc ih.1, h _ _ hc⟩
  · induction hq using Relation.ReflTransGen.head_induction_on with
    | refl => exact ⟨.refl, hn⟩
    | head hc _ ih => exact ⟨.head ((link_deepCopy_iff ih.2).2 hc) ih.1, h _ _ hc⟩

theorem Grounded.marks_below_copy (h : s.Grounded r) {m : Marks} :
    (∃ q, Relation.ReflTransGen (s.deepCopy r).2.Part q (s.deepCopy r).1 ∧
      (s.deepCopy r).2.marks q = m) ↔
      ∃ q, Relation.ReflTransGen s.Part q r ∧ s.marks q = m := by
  have hpath {s : Store} {r : Ref} : (∃ q, Relation.ReflTransGen s.Part q r ∧ s.marks q = m) ↔
      ∃ path, (s.follow? r path).map s.marks = some m := by
    simp only [below_iff_follow?, Option.map_eq_some_iff]
    exact ⟨fun ⟨q, ⟨path, hq⟩, hm⟩ => ⟨path, q, hq, hm⟩,
      fun ⟨path, q, hq, hm⟩ => ⟨q, ⟨path, hq⟩, hm⟩⟩
  have hmarks (path : List Slot) : ((s.deepCopy r).2.follow? (s.deepCopy r).1 path).map
      (s.deepCopy r).2.marks = (s.follow? r path).map s.marks := by
    have hshows := congrArg (Option.map Prod.snd) (h.deepCopy_shows (fun _ _ => rfl) path)
    simpa only [Option.map_map, Function.comp_def] using hshows
  simp only [hpath, hmarks]

/-- What a copy leads to is below it, and new, or is what the notes at or below the original lead
to. -/
theorem Closed.reachable_from_copy_iff (h : s.Closed) (hg : s.Grounded r) :
    Relation.ReflTransGen (s.deepCopy r).2.Link q (s.deepCopy r).1 ↔
      Relation.ReflTransGen (s.deepCopy r).2.Part q (s.deepCopy r).1 ∨
        ∃ p n, Relation.ReflTransGen s.Part p r ∧ n ∈ (s.marks p).notes.values ∧
          Relation.ReflTransGen s.Link q n := by
  have hold {p n q : Ref} (hn : n ∈ (s.marks p).notes.values) :
      Relation.ReflTransGen (s.deepCopy r).2.Link q n ↔ Relation.ReflTransGen s.Link q n :=
    h.reachable_deepCopy_iff (h p n (.inr hn))
  constructor
  · intro hq
    induction hq using Relation.ReflTransGen.head_induction_on with
    | refl => exact .inl .refl
    | @head a b hab _ ih =>
      rcases ih with hb | ⟨p, n, hp, hn, hb⟩
      · rcases hab with hpart | hnote
        · exact .inl (.head hpart hb)
        · obtain ⟨p, hp, hmarks⟩ := hg.marks_below_copy.1 ⟨b, hb, rfl⟩
          exact .inr ⟨p, a, hp, hmarks ▸ hnote, .refl⟩
      · exact .inr ⟨p, n, hp, hn, (hold hn).1 (.head hab ((hold hn).2 hb))⟩
  · rintro (hq | ⟨p, n, hp, hn, hq⟩)
    · exact links_of_below hq
    · obtain ⟨b, hb, hmarks⟩ := hg.marks_below_copy.2 ⟨p, hp, rfl⟩
      have hnote : (s.deepCopy r).2.Link n b := .inr (hmarks ▸ hn)
      exact ((hold hn).2 hq).trans (.head hnote (links_of_below hb))

/-- A copy has the content and the marks of the original at every path, and keeps them whatever is
done to nodes that were there. Its nodes are new. What it shares with the original is what the notes
at or below the original lead to. -/
theorem copy_shares_notes (hs : s.Closed) (hg : s.Grounded r) (hr : s.Known r) :
    let c := (s.deepCopy r).1
    let t := (s.deepCopy r).2
    (∀ u, Relation.ReflTransGen (Changes fun q => ¬ Fresh s t q) t u → ∀ path,
      (u.follow? c path).map (fun q => (u.content q, u.marks q)) =
        (s.follow? r path).map fun q => (s.content q, s.marks q)) ∧
    (∀ q, Relation.ReflTransGen t.Part q c → Fresh s t q) ∧
    ∀ q, Relation.ReflTransGen t.Link q c ∧ Relation.ReflTransGen t.Link q r ↔
      ∃ p n, Relation.ReflTransGen s.Part p r ∧ n ∈ (s.marks p).notes.values ∧
        Relation.ReflTransGen s.Link q n := by
  intro c t
  refine ⟨fun u hu => hg.deepCopy_shows fun q hq => ?_, fun q hq => fresh_of_deepCopy hq,
    fun q => ⟨fun ⟨hcopy, horiginal⟩ => ?_, fun hshared => ⟨?_, ?_⟩⟩⟩
  · exact (spares_of_changes hu).node hq.2 (not_not_intro hq)
  · rcases (hs.reachable_from_copy_iff hg).1 hcopy with hbelow | hshared
    · have hknown : s.Known q := by
        rcases ((hs.reachable_deepCopy_iff hr).1 horiginal).cases_head with rfl | ⟨b, hqb, -⟩
        · exact hr
        · exact hs b q hqb
      exact absurd hknown (Nat.not_lt.2 (fresh_of_deepCopy hbelow).1)
    · exact hshared
  · exact (hs.reachable_from_copy_iff hg).2 (.inr hshared)
  · obtain ⟨p, n, hp, hn, hq⟩ := hshared
    have hnote : s.Link n p := .inr hn
    exact (hs.reachable_deepCopy_iff hr).2 (hq.trans (.head hnote (links_of_below hp)))

/-- A slice with a note on it, copied. -/
theorem copy_shares_notes_slice :
    let s :=
      (Session.start (.slice [.int 1, .slice [.int 2]]) []).2.store.setNote ⟨2⟩ "k" ⟨0⟩
    let c := (s.deepCopy ⟨2⟩).1
    let t := (s.deepCopy ⟨2⟩).2
    let u := (Mutation.set ⟨0⟩).run ⟨1⟩ t
    (u.follow? c []).map (fun q => (u.content q, u.marks q)) =
      some (.slice [.int 2], s.marks ⟨2⟩) ∧ Relation.ReflTransGen t.Link ⟨0⟩ c := by
  intro s c t u
  have hs : s.Closed := by
    have hnodes : ∀ i < 4, ∀ c ∈ (s.data ⟨i⟩).children ++
        (s.marks ⟨i⟩).notes.values, c.index < 4 := by
      decide +kernel
    intro r c hc
    have hr : s.Known r := by
      by_contra hr
      rcases hc with hpart | hnote
      · exact hr hpart.lt
      · rw [marks_of_not_known hr] at hnote
        exact List.not_mem_nil hnote
    exact hnodes r.index hr c (List.mem_append.2 hc)
  have hg : s.Grounded ⟨2⟩ := by
    have hplain := Session.Plain.start (.slice [.int 1, .slice [.int 2]]) []
    have hstart := hplain.forest.grounded (r := ⟨2⟩) (by decide)
    exact hstart.of_data_eq (fun _ => True) trivial (fun _ _ => trivial) fun _ => data_mark ..
  have hr : (⟨2⟩ : Ref).index < s.size := by decide +kernel
  obtain ⟨hlater, -, hshared⟩ := copy_shares_notes hs hg hr
  have hnote : (⟨0⟩ : Ref) ∈ (s.marks ⟨2⟩).notes.values := by decide +kernel
  have hold : ¬ Fresh s t ⟨1⟩ := fun hfresh => absurd hfresh.1 (by decide +kernel)
  refine ⟨hlater u (.single (.run (.set ⟨0⟩) hold)) [], ?_⟩
  exact ((hshared ⟨0⟩).2 ⟨⟨2⟩, ⟨0⟩, .refl, hnote, .refl⟩).1

/-- A note that a copy shares with its original is changed, and the copy's note holds something else
then. -/
theorem copied_note_changes :
    let s :=
      (Session.start (.slice [.int 1, .int 2, .slice []]) []).2.store.setNote ⟨2⟩ "k" ⟨0⟩
    let c := (s.deepCopy ⟨2⟩).1
    let t := (s.deepCopy ⟨2⟩).2
    let u := (Mutation.set ⟨1⟩).run ⟨0⟩ t
    t.Link ⟨0⟩ c ∧ t.Link ⟨0⟩ ⟨2⟩ ∧
      (t.note? c "k").map t.content = some (.int 1) ∧
      (u.note? c "k").map u.content = some (.int 2) := by
  intro s c t u
  have hcopy : (⟨0⟩ : Ref) ∈ (t.marks c).notes.values := by decide +kernel
  have horiginal : (⟨0⟩ : Ref) ∈ (t.marks ⟨2⟩).notes.values := by decide +kernel
  exact ⟨.inr hcopy, .inr horiginal, rfl, rfl⟩

end Store

end DocSelect
