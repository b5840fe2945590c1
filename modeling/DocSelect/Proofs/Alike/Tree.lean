import DocSelect.Proofs.Alike.Store
import DocSelect.Value.Descent
import DocSelect.Value.Sorting

/-!
# Trees that are alike

The trees below paired nodes have the same shape, and their nodes are paired. Whatever looks at
values to every depth sees the same in both.
-/
namespace DocSelect

variable {m : Pairing}

namespace Tree

mutual

/-- Trees of one shape, with the same scalars and keys, whose nodes are paired. -/
def Alike (m : Pairing) : Tree → Tree → Prop
  | scalar r k a, scalar r' k' a' => m r r' ∧ k.Alike k' ∧ a = a'
  | slice r k items, slice r' k' items' => m r r' ∧ k.Alike k' ∧ AlikeItems m items items'
  | map r k entries, map r' k' entries' => m r r' ∧ k.Alike k' ∧ AlikeEntries m entries entries'
  | _, _ => False

def AlikeItems (m : Pairing) : List Tree → List Tree → Prop
  | [], [] => True
  | t :: ts, u :: us => Alike m t u ∧ AlikeItems m ts us
  | _, _ => False

def AlikeEntries (m : Pairing) : List (String × Tree) → List (String × Tree) → Prop
  | [], [] => True
  | (k, t) :: es, (k', t') :: es' => k = k' ∧ Alike m t t' ∧ AlikeEntries m es es'
  | _, _ => False

end

theorem alikeItems_iff {ts us : List Tree} :
    AlikeItems m ts us ↔ List.Forall₂ (Alike m) ts us := by
  induction ts generalizing us with
  | nil => cases us <;> simp [AlikeItems]
  | cons t ts ih => cases us <;> simp [AlikeItems, ih]

theorem alikeEntries_iff {es es' : List (String × Tree)} :
    AlikeEntries m es es' ↔ Assoc.Alike (Alike m) es es' := by
  induction es generalizing es' with
  | nil => cases es' <;> simp [AlikeEntries, Assoc.Alike]
  | cons e es ih =>
    cases es' with
    | nil => simp [AlikeEntries, Assoc.Alike]
    | cons e' es' => simp [AlikeEntries, ih, Assoc.Alike, and_assoc]

theorem Alike.ref {t u : Tree} (h : Alike m t u) : m t.ref u.ref := by
  cases t <;> cases u <;> simp only [Alike] at h <;> exact h.1

theorem Alike.isScalar_eq {t u : Tree} (h : Alike m t u) : t.isScalar = u.isScalar := by
  cases t <;> cases u <;> first | rfl | exact h.elim

theorem Alike.rank_eq {t u : Tree} (h : Alike m t u) : t.rank = u.rank := by
  cases t <;> cases u <;> simp only [Alike] at h
  · simp only [rank, h.2.2]
  · rfl
  · rfl

mutual

theorem Alike.content_eq : {t u : Tree} → Alike m t u → t.content = u.content
  | scalar .., scalar .., h => congrArg Content.scalar h.2.2
  | slice .., slice .., h => congrArg Content.slice (AlikeItems.contents_eq h.2.2)
  | map .., map .., h => congrArg Content.map (AlikeEntries.contents_eq h.2.2)

theorem AlikeItems.contents_eq :
    {ts us : List Tree} → AlikeItems m ts us → contents ts = contents us
  | [], [], _ => rfl
  | _ :: _, _ :: _, h => congrArg₂ List.cons h.1.content_eq (AlikeItems.contents_eq h.2)

theorem AlikeEntries.contents_eq : {es es' : List (String × Tree)} → AlikeEntries m es es' →
    entryContents es = entryContents es'
  | [], [], _ => rfl
  | _ :: _, _ :: _, h => congrArg₂ List.cons (congrArg₂ Prod.mk h.1 h.2.1.content_eq)
    (AlikeEntries.contents_eq h.2.2)

end

section
-- names are compared, so that a pairing must not tell more or fewer nodes apart
variable (hm : ∀ {a b a' b' : Ref}, m a b → m a' b' → (a = a' ↔ b = b'))
include hm

set_option linter.unusedSectionVars false in
mutual

theorem Alike.equal_eq : {t t' u u' : Tree} → Alike m t t' → Alike m u u' →
    t.equal u = t'.equal u'
  | scalar .., scalar .., u, u', h, hu => by
    obtain ⟨hr, -, rfl⟩ := h
    simp only [equal, hm hr hu.ref]
    cases u <;> cases u' <;> simp only [Alike] at hu <;> simp [hu.2.2]
  | slice _ _ items, slice _ _ items', u, u', h, hu => by
    simp only [equal, hm h.1 hu.ref]
    cases u <;> cases u' <;> simp only [Alike] at hu <;> try rfl
    dsimp only
    rw [AlikeItems.equal_eq h.2.2 hu.2.2, (alikeItems_iff.1 h.2.2).length_eq,
      (alikeItems_iff.1 hu.2.2).length_eq]
  | map _ _ entries, map _ _ entries', u, u', h, hu => by
    simp only [equal, hm h.1 hu.ref]
    cases u <;> cases u' <;> simp only [Alike] at hu <;> try rfl
    dsimp only
    rw [AlikeEntries.equal_eq h.2.2 (alikeEntries_iff.1 hu.2.2),
      (alikeEntries_iff.1 h.2.2).length_eq, (alikeEntries_iff.1 hu.2.2).length_eq]

theorem AlikeItems.equal_eq :
    {ts ts' us us' : List Tree} → AlikeItems m ts ts' → AlikeItems m us us' →
    equalItems ts us = equalItems ts' us'
  | [], [], us, us', _, _ => by simp [equalItems]
  | _ :: _, _ :: _, [], [], _, _ => rfl
  | _ :: _, _ :: _, _ :: _, _ :: _, h, hu => by
    simp only [equalItems]
    rw [Alike.equal_eq h.1 hu.1, AlikeItems.equal_eq h.2 hu.2]

theorem AlikeEntries.equal_eq :
    {es es' os os' : List (String × Tree)} → AlikeEntries m es es' →
    Assoc.Alike (Alike m) os os' → equalEntries es os = equalEntries es' os'
  | [], [], _, _, _, _ => rfl
  | (k, _) :: _, (_, _) :: _, os, os', h, ho => by
    obtain ⟨rfl, ht, hes⟩ := h
    simp only [equalEntries]
    rw [AlikeEntries.equal_eq hes ho]
    rcases ho.find? k with ⟨hu, hu'⟩ | ⟨u, u', hu, hu', hlike⟩ <;> rw [hu, hu']
    simp only [Alike.equal_eq ht hlike]

end

set_option linter.unusedSectionVars false in
mutual

theorem Alike.compare_eq : {t t' u u' : Tree} → Alike m t t' → Alike m u u' →
    t.compare u = t'.compare u'
  | scalar .., scalar .., u, u', h, hu => by
    obtain ⟨hr, -, rfl⟩ := h
    have hrank := hu.rank_eq
    simp only [compare, hm hr hu.ref]
    cases u <;> cases u' <;> simp only [Alike] at hu <;> simp [hu.2.2, rank]
  | slice _ _ items, slice _ _ items', u, u', h, hu => by
    have hrank := hu.rank_eq
    simp only [compare, hm h.1 hu.ref]
    cases u <;> cases u' <;> simp only [Alike] at hu
    · simp only [hrank]
    · simp only [AlikeItems.compare_eq h.2.2 hu.2.2]
    · rfl
  | map _ _ entries, map _ _ entries', u, u', h, hu => by
    have hrank := hu.rank_eq
    simp only [compare, hm h.1 hu.ref]
    cases u <;> cases u' <;> simp only [Alike] at hu
    · simp only [hrank]
    · rfl
    · have hes := alikeEntries_iff.1 h.2.2
      have hos := alikeEntries_iff.1 hu.2.2
      simp only [AlikeEntries.compare_eq h.2.2 hos, hes.length_eq, hos.length_eq, sortedKeys,
        hes.keys_eq, hos.keys_eq]

theorem AlikeItems.compare_eq : {ts ts' us us' : List Tree} → AlikeItems m ts ts' →
    AlikeItems m us us' → compareItems ts us = compareItems ts' us'
  | [], [], [], [], _, _ => rfl
  | [], [], _ :: _, _ :: _, _, _ => rfl
  | _ :: _, _ :: _, [], [], _, _ => rfl
  | _ :: _, _ :: _, _ :: _, _ :: _, h, hu => by
    simp only [compareItems]
    rw [Alike.compare_eq h.1 hu.1, AlikeItems.compare_eq h.2 hu.2]

theorem AlikeEntries.compare_eq :
    {es es' os os' : List (String × Tree)} → AlikeEntries m es es' →
    Assoc.Alike (Alike m) os os' → compareEntries es os = compareEntries es' os'
  | [], [], _, _, _, _ => rfl
  | (k, _) :: _, (_, _) :: _, os, os', h, ho => by
    obtain ⟨rfl, ht, hes⟩ := h
    simp only [compareEntries]
    rw [AlikeEntries.compare_eq hes ho]
    rcases ho.find? k with ⟨hu, hu'⟩ | ⟨u, u', hu, hu', hlike⟩ <;> rw [hu, hu']
    simp only [Alike.compare_eq ht hlike]

end

theorem Alike.precedes_eq {t t' u u' : Tree} (h : Alike m t t') (hu : Alike m u u')
    (descending : Bool) : t.precedes descending u = t'.precedes descending u' := by
  unfold precedes
  rw [h.compare_eq hm hu, hu.compare_eq hm h]

end

theorem forall₂_ite (p : Bool) {a b : Ref} (h : m a b) :
    List.Forall₂ m (if p then [a] else []) (if p then [b] else []) := by
  cases p
  · exact .nil
  · exact .cons h .nil

mutual

theorem Alike.found {target : DescentTarget} : {t u : Tree} → Alike m t u →
    List.Forall₂ m (t.found target) (u.found target)
  | scalar .., scalar .., _ => .nil
  | slice .., slice .., h => AlikeItems.found 0 h.2.2
  | map .., map .., h => AlikeEntries.found h.2.2

theorem AlikeItems.found {target : DescentTarget} (i : Nat) : {ts us : List Tree} →
    AlikeItems m ts us → List.Forall₂ m (foundItems target i ts) (foundItems target i us)
  | [], [], _ => .nil
  | t :: _, u :: _, h => by
    simp only [foundItems, h.1.isScalar_eq]
    exact List.rel_append (List.rel_append (forall₂_ite _ h.1.ref) (Alike.found h.1))
      (AlikeItems.found (i + 1) h.2)

theorem AlikeEntries.found {target : DescentTarget} : {es es' : List (String × Tree)} →
    AlikeEntries m es es' → List.Forall₂ m (foundEntries target es) (foundEntries target es')
  | [], [], _ => .nil
  | (k, t) :: _, (_, u) :: _, h => by
    obtain ⟨rfl, ht, hes⟩ := h
    simp only [foundEntries, ht.isScalar_eq]
    exact List.rel_append (List.rel_append (forall₂_ite _ ht.ref) (Alike.found ht))
      (AlikeEntries.found hes)

end

end Tree

-- ---------------------------------------------------------------------------
-- Trees of a store
-- ---------------------------------------------------------------------------

namespace Store.Alike

variable {s t : Store} {a b a' b' : Ref}

theorem same_iff (h : s.Alike m t) (hab : m a b) (hab' : m a' b') : a = a' ↔ b = b' :=
  ⟨fun heq => h.right (heq ▸ hab) hab', fun heq => h.left (heq ▸ hab) hab'⟩

theorem tree (h : s.Alike m t) (hab : m a b) : Tree.Alike m (s.tree a) (t.tree b) := by
  have hacc := h.grounded hab
  induction hacc generalizing b with
  | intro a _ ih =>
    have hd := h.data hab
    have hpart : ∀ c ∈ (s.data a).children, ∀ d, m c d →
        Tree.Alike m (s.tree c) (t.tree d) :=
      fun c hc d hcd => ih c hc hcd
    have hmarks := h.marks hab
    rw [(h.grounded hab).tree_eq, (h.grounded_right hab).tree_eq]
    generalize s.data a = d, t.data b = d' at hd hpart ⊢
    cases hd with
    | scalar => exact ⟨hab, h.marks hab, rfl⟩
    | slice hxs =>
      exact ⟨hab, hmarks, Tree.alikeItems_iff.2 (forall₂_map_of_mem hxs hpart)⟩
    | map hes =>
      refine ⟨hab, hmarks, Tree.alikeEntries_iff.2 (forall₂_map_of_mem hes ?_)⟩
      exact fun e he e' hee => ⟨hee.1, hpart e.2 (List.mem_map_of_mem he) e'.2 hee.2⟩

theorem content_eq (h : s.Alike m t) (hab : m a b) : s.content a = t.content b :=
  (h.tree hab).content_eq

theorem equal_eq (h : s.Alike m t) (hab : m a b) (hab' : m a' b') : s.equal a a' = t.equal b b' :=
  (h.tree hab).equal_eq h.same_iff (h.tree hab')

theorem compare_eq (h : s.Alike m t) (hab : m a b) (hab' : m a' b') :
    s.compare a a' = t.compare b b' :=
  (h.tree hab).compare_eq h.same_iff (h.tree hab')

theorem relation?_eq (h : s.Alike m t) (hab : m a b) (hab' : m a' b') :
    s.relation? a a' = t.relation? b b' := by
  unfold relation?
  rw [h.kind_eq hab, h.kind_eq hab', h.compare_eq hab hab']

theorem operate?_eq (h : s.Alike m t) (hab : m a b) (hab' : m a' b') (op : BinaryOp) :
    s.operate? op a a' = t.operate? op b b' := by
  unfold operate? less? lessEqual? greater? greaterEqual?
  simp only [h.equal_eq hab hab', h.relation?_eq hab hab', h.logic?_eq hab hab',
    h.arithmetic?_eq hab hab']

end Store.Alike

end DocSelect
