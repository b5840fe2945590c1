import DocSelect.Proofs.Equality
import DocSelect.Proofs.Order
import DocSelect.Proofs.Soundness.Store

/-!
# Values and their copies

Equality looks at the names of nodes first. A node is equal to itself, whatever it holds, while a
NaN is equal to no number: what holds a NaN is equal to itself and not to its copy. This is all that
names do. A copy compares with every value as the original does, and is equal to the same values if
there is no NaN in it.
-/
namespace DocSelect

inductive Content.NaNFree : Content → Prop where
  | scalar {a : Scalar} (h : ∀ x, a = .float x → x.isNaN = false) : NaNFree (.scalar a)
  | slice {items : List Content} (h : ∀ c ∈ items, NaNFree c) : NaNFree (.slice items)
  | map {entries : List (String × Content)} (h : ∀ e ∈ entries, NaNFree e.2) :
    NaNFree (.map entries)

theorem Scalar.equal_self_iff {a : Scalar} :
    a.equal a = true ↔ ∀ x, a = .float x → x.isNaN = false := by
  cases a <;> simp [equal, Binary64.equal]

-- ---------------------------------------------------------------------------
-- Lists side by side
-- ---------------------------------------------------------------------------

section
variable {α β γ : Type} {xs : List α} {ys : List β} {f : α → γ} {g : β → γ}

theorem forall_zip_fst (h : xs.length = ys.length) {P : α → Prop} :
    (∀ p ∈ xs.zip ys, P p.1) ↔ ∀ x ∈ xs, P x := by
  have hfst : (xs.zip ys).map Prod.fst = xs := List.map_fst_zip (Nat.le_of_eq h)
  conv_rhs => rw [← hfst]
  exact List.forall_mem_map.symm

theorem apply_eq_of_mem_zip (h : xs.map f = ys.map g) {p : α × β} (hp : p ∈ xs.zip ys) :
    f p.1 = g p.2 := by
  induction xs generalizing ys with
  | nil => cases hp
  | cons x xs ih =>
    cases ys with
    | nil => cases hp
    | cons y ys =>
      obtain ⟨hxy, hrest⟩ := List.cons.inj h
      rcases List.mem_cons.1 hp with rfl | hp
      · exact hxy
      · exact ih hrest hp

theorem all_eq_of_map_eq (h : xs.map f = ys.map g) {p : α → Bool} {q : β → Bool}
    (hpq : ∀ x ∈ xs, ∀ y ∈ ys, f x = g y → p x = q y) : xs.all p = ys.all q := by
  induction xs generalizing ys with
  | nil =>
    cases ys with
    | nil => rfl
    | cons => cases h
  | cons x xs ih =>
    cases ys with
    | nil => cases h
    | cons y ys =>
      obtain ⟨hxy, hrest⟩ := List.cons.inj h
      rw [List.all_cons, List.all_cons, hpq x List.mem_cons_self y List.mem_cons_self hxy,
        ih hrest fun a ha b hb => hpq a (List.mem_cons_of_mem _ ha) b (List.mem_cons_of_mem _ hb)]

end

/-- Where the same keys stand side by side, looking up a key finds the value at its side. -/
theorem all_find?_eq_zip (part : Ref → Ref → Bool) {es os others : List (String × Ref)}
    (hkeys : es.map Prod.fst = os.map Prod.fst)
    (hfind : ∀ o ∈ os, Assoc.find? o.1 others = some o.2) :
    (es.all fun e =>
      match Assoc.find? e.1 others with
      | some c => part e.2 c
      | none => false) = ((es.map Prod.snd).zip (os.map Prod.snd)).all fun p => part p.1 p.2 := by
  induction es generalizing os with
  | nil => rfl
  | cons e es ih =>
    cases os with
    | nil => cases hkeys
    | cons o os =>
      obtain ⟨hkey, hrest⟩ := List.cons.inj hkeys
      rw [List.all_cons, ih hrest fun p hp => hfind p (List.mem_cons_of_mem _ hp), hkey,
        hfind o List.mem_cons_self]
      rfl

-- ---------------------------------------------------------------------------
-- Data of one content
-- ---------------------------------------------------------------------------

namespace Data

variable {part part' : Ref → Ref → Bool} {d d' e e' : Data} {f g : Ref → Content}

theorem children_map_eq (h : d.contentWith f = d'.contentWith g) :
    d.children.map f = d'.children.map g := by
  cases d <;> cases d' <;>
    simp only [contentWith, Content.slice.injEq, Content.map.injEq, reduceCtorEq] at h
  case scalar.scalar => rfl
  case slice.slice => exact h
  case map.map => exact (map_entry_eq_iff.1 h).2

theorem arrangedWith_eq_of_contentWith_eq (h : d.contentWith f = d'.contentWith g) :
    d.arrangedWith f = d'.arrangedWith g := by
  cases d <;> cases d' <;> simp only [contentWith, Content.scalar.injEq, Content.slice.injEq,
    Content.map.injEq, reduceCtorEq] at h
  case scalar.scalar => rw [arrangedWith, arrangedWith, h]
  case slice.slice => rw [arrangedWith, arrangedWith, h]
  case map.map m m' =>
    rw [arrangedWith, arrangedWith, Dict.map_sorted, Dict.map_sorted, h]

/-- Data of one content are equal if the parts side by side are, and the scalar is equal to
itself. -/
theorem equalWith_iff_zip (h : d.contentWith f = d'.contentWith g) :
    equalWith part d d' = true ↔
      (∀ a, d = .scalar a → a.equal a = true) ∧
      ∀ p ∈ d.children.zip d'.children, part p.1 p.2 = true := by
  have hlength := congrArg List.length (children_map_eq h)
  rw [List.length_map, List.length_map] at hlength
  cases d <;> cases d' <;>
    simp only [contentWith, Content.scalar.injEq, Content.map.injEq, reduceCtorEq] at h
  case scalar.scalar a b => simp [equalWith, children, h]
  case slice.slice items others =>
    simp [equalWith, children, show items.length = others.length from hlength]
  case map.map m m' =>
    have hsize : m.size = m'.size := by
      rwa [children, children, Dict.values, Dict.values, List.length_map, List.length_map]
        at hlength
    have hall := all_find?_eq_zip part (map_entry_eq_iff.1 h).1 fun o ho => m'.find?_of_mem ho
    rw [equalWith, hsize, BEq.rfl, Bool.true_and]
    exact (Bool.eq_iff_iff.1 hall).trans (List.all_eq_true.trans (by simp [children, Dict.values]))

/-- What is free of NaN is a scalar that is equal to itself, or has parts that are free of it. -/
theorem nanFree_contentWith_iff :
    (d.contentWith f).NaNFree ↔
      (∀ a, d = .scalar a → a.equal a = true) ∧ ∀ c ∈ d.children, (f c).NaNFree := by
  cases d with
  | scalar a =>
    simp only [contentWith, scalar.injEq, children, List.not_mem_nil, false_implies,
      implies_true, and_true, forall_eq', Scalar.equal_self_iff]
    exact ⟨fun h => by cases h; assumption, .scalar⟩
  | slice items =>
    simp only [contentWith, reduceCtorEq, false_implies, implies_true, true_and, children]
    refine ⟨fun h => ?_, fun h => .slice (List.forall_mem_map.2 h)⟩
    cases h with
    | slice h => exact List.forall_mem_map.1 h
  | map m =>
    simp only [contentWith, reduceCtorEq, false_implies, implies_true, true_and,
      children, Dict.values]
    rw [List.forall_mem_map]
    refine ⟨fun h => ?_, fun h => .map ?_⟩
    · cases h with
      | map h =>
        rw [List.forall_mem_map] at h
        exact h
    · rw [List.forall_mem_map]
      exact h

/-- Data of one content are equal just if it has no NaN, where that holds of their parts. -/
theorem equalWith_iff_nanFree (h : d.contentWith f = d'.contentWith g)
    (hpart : ∀ c ∈ d.children, ∀ c' ∈ d'.children, f c = g c' →
      (part c c' = true ↔ (f c).NaNFree)) :
    equalWith part d d' = true ↔ (d.contentWith f).NaNFree := by
  have hmap := children_map_eq h
  have hlength : d.children.length = d'.children.length := by
    have hlength := congrArg List.length hmap
    rwa [List.length_map, List.length_map] at hlength
  have hzip (p : Ref × Ref) (hp : p ∈ d.children.zip d'.children) :
      part p.1 p.2 = true ↔ (f p.1).NaNFree :=
    hpart p.1 (List.of_mem_zip hp).1 p.2 (List.of_mem_zip hp).2 (apply_eq_of_mem_zip hmap hp)
  rw [equalWith_iff_zip h, nanFree_contentWith_iff, ← forall_zip_fst hlength]
  exact and_congr_right' (forall₂_congr hzip)

/-- Data of the same contents are equal to each other or not, where that holds of their parts. -/
theorem equalWith_congr (hd : d.contentWith f = e.contentWith g)
    (hd' : d'.contentWith f = e'.contentWith g)
    (h : ∀ c ∈ d.children, ∀ c' ∈ d'.children, ∀ b ∈ e.children, ∀ b' ∈ e'.children,
      f c = g b → f c' = g b' → part c c' = part' b b') :
    equalWith part d d' = equalWith part' e e' := by
  cases d <;> cases e <;> simp only [contentWith, Content.scalar.injEq, Content.slice.injEq,
    Content.map.injEq, reduceCtorEq] at hd
  all_goals cases d' <;> cases e' <;>
    simp only [contentWith, Content.scalar.injEq, Content.slice.injEq,
    Content.map.injEq, reduceCtorEq] at hd'
  case scalar.scalar.scalar.scalar => rw [equalWith, equalWith, hd, hd']
  case slice.slice.slice.slice items items' others others' =>
    have hlength := congrArg List.length hd
    have hlength' := congrArg List.length hd'
    rw [List.length_map, List.length_map] at hlength hlength'
    have hzip : (items.zip others).map (Prod.map f f) =
        (items'.zip others').map (Prod.map g g) := by
      rw [← List.zip_map, ← List.zip_map, hd, hd']
    rw [equalWith, equalWith, hlength, hlength']
    refine congrArg (_ && ·) (all_eq_of_map_eq hzip fun p hp q hq heq => ?_)
    exact h p.1 (List.of_mem_zip hp).1 p.2 (List.of_mem_zip hp).2 q.1 (List.of_mem_zip hq).1 q.2
      (List.of_mem_zip hq).2 (congrArg Prod.fst heq) (congrArg Prod.snd heq)
  case map.map.map.map m m' n n' =>
    have hsize : m.size = m'.size := by simpa [Dict.size] using congrArg List.length hd
    have hsize' : n.size = n'.size := by simpa [Dict.size] using congrArg List.length hd'
    have hfind (key : String) : (n.find? key).map f = (n'.find? key).map g := by
      rw [Dict.find?, Dict.find?, ← Assoc.find?_map, ← Assoc.find?_map, hd']
    rw [equalWith, equalWith, hsize, hsize']
    refine congrArg (_ && ·) (all_eq_of_map_eq hd fun e he o ho heq => ?_)
    obtain ⟨hkey, hvalue⟩ := Prod.mk.inj heq
    have hfound := hfind e.1
    rw [← hkey]
    cases hc : n.find? e.1 with
    | none =>
      rw [hc] at hfound
      rw [Option.map_eq_none_iff.1 hfound.symm]
    | some c =>
      rw [hc] at hfound
      obtain ⟨c', hc', hcontent⟩ := Option.map_eq_some_iff.1 hfound.symm
      rw [hc']
      exact h e.2 (List.mem_map_of_mem he) c (List.mem_map_of_mem (n.mem_of_find? hc)) o.2
        (List.mem_map_of_mem ho) c' (List.mem_map_of_mem (n'.mem_of_find? hc')) hvalue hcontent.symm
  all_goals rfl

end Data

-- ---------------------------------------------------------------------------
-- Nodes
-- ---------------------------------------------------------------------------

namespace Store.Grounded

variable {s t : Store} {a b a' b' : Ref}

theorem nanFree_part (h : s.Grounded a) (hfree : (s.content a).NaNFree) {c : Ref}
    (hc : s.Part c a) : (s.content c).NaNFree := by
  rw [h.content_eq] at hfree
  exact (Data.nanFree_contentWith_iff.1 hfree).2 c hc

theorem equal_of_content_eq (ha : s.Grounded a) (hb : s.Grounded b) (h : s.content a = s.content b)
    (hfree : (s.content a).NaNFree) : s.equal a b = true := by
  induction ha generalizing b with
  | intro a hparts ih =>
    have ha : s.Grounded a := ⟨a, hparts⟩
    have hpart : ∀ c ∈ (s.data a).children, ∀ c' ∈ (s.data b).children, s.content c =
        s.content c' → (s.equal c c' = true ↔ (s.content c).NaNFree) := fun c hc c' hc' heq =>
      have hfree := ha.nanFree_part hfree hc
      iff_of_true (ih c hc (hb.part hc') heq hfree) hfree
    rw [ha.content_eq, hb.content_eq] at h
    rw [ha.content_eq] at hfree
    rw [ha.equal_eq hb, (Data.equalWith_iff_nanFree h hpart).2 hfree, Bool.or_true]

theorem equal_iff_nanFree (ha : s.Grounded a) (hb : s.Grounded b) (h : s.content a = s.content b)
    (hapart : ∀ q, Relation.ReflTransGen s.Part q a → ¬ Relation.ReflTransGen s.Part q b) :
    s.equal a b = true ↔ (s.content a).NaNFree := by
  induction ha generalizing b with
  | intro a hparts ih =>
    have ha : s.Grounded a := ⟨a, hparts⟩
    have hne : a ≠ b := fun heq => hapart a .refl (heq ▸ .refl)
    rw [ha.equal_eq hb, decide_eq_false hne, Bool.false_or, ha.content_eq]
    rw [ha.content_eq, hb.content_eq] at h
    exact Data.equalWith_iff_nanFree h fun c hc c' hc' heq =>
      ih c hc (hb.part hc') heq fun q hq hq' => hapart q (hq.tail hc) (hq'.tail hc')

theorem compare_eq_of_contents (ha : s.Grounded a) (hb : s.Grounded b) (ha' : t.Grounded a')
    (hb' : t.Grounded b') (h : s.content a = t.content a') (h' : s.content b = t.content b') :
    s.compare a b = t.compare a' b' := by
  induction ha generalizing b a' b' with
  | intro a hparts ih =>
    have ha : s.Grounded a := ⟨a, hparts⟩
    by_cases heq : s.content a = s.content b
    · rw [ha.compare_of_content_eq hb heq,
        ha'.compare_of_content_eq hb' (h.symm.trans (heq.trans h'))]
    · have hne : a ≠ b := fun hab => heq (hab ▸ rfl)
      have hne' : a' ≠ b' := fun hab => heq (h.trans (hab ▸ h'.symm))
      rw [ha.compare_eq hb, ha'.compare_eq hb', if_neg hne, if_neg hne']
      rw [ha.content_eq, ha'.content_eq] at h
      rw [hb.content_eq, hb'.content_eq] at h'
      exact Data.compareWith_congr (Data.arrangedWith_eq_of_contentWith_eq h)
        (Data.arrangedWith_eq_of_contentWith_eq h') fun c hc d hd c' hc' d' hd' =>
          ih c hc (hb.part hd) (ha'.part hc') (hb'.part hd')

/-- Nodes are equal if their contents are, in whichever store they are and whatever nodes they
share, if one of them has no NaN in it. -/
theorem equal_eq_of_contents (ha : s.Grounded a) (hb : s.Grounded b) (ha' : t.Grounded a')
    (hb' : t.Grounded b') (h : s.content a = t.content a') (h' : s.content b = t.content b')
    (hfree : (s.content b).NaNFree) : s.equal a b = t.equal a' b' := by
  induction ha generalizing b a' b' with
  | intro a hparts ih =>
    have ha : s.Grounded a := ⟨a, hparts⟩
    by_cases heq : s.content a = s.content b
    · rw [ha.equal_of_content_eq hb heq (heq ▸ hfree),
        ha'.equal_of_content_eq hb' (h.symm.trans (heq.trans h')) (h ▸ heq ▸ hfree)]
    · have hne : a ≠ b := fun hab => heq (hab ▸ rfl)
      have hne' : a' ≠ b' := fun hab => heq (h.trans (hab ▸ h'.symm))
      rw [ha.equal_eq hb, ha'.equal_eq hb', decide_eq_false hne,
        decide_eq_false hne', Bool.false_or, Bool.false_or]
      rw [ha.content_eq, ha'.content_eq] at h
      rw [hb.content_eq, hb'.content_eq] at h'
      exact Data.equalWith_congr h h' fun c hc d hd c' hc' d' hd' hcontent hcontent' =>
        ih c hc (hb.part hd) (ha'.part hc') (hb'.part hd') hcontent hcontent'
          (hb.nanFree_part hfree hd)

end Store.Grounded

-- ---------------------------------------------------------------------------
-- Copies
-- ---------------------------------------------------------------------------

namespace Store

variable {s : Store} {r w q : Ref}

/-- The store has the node and all nodes below it, and no path goes down from the node without
end. -/
structure Intact (s : Store) (r : Ref) : Prop where
  grounded : s.Grounded r
  known {q : Ref} : Relation.ReflTransGen s.Part q r → s.Known q

theorem Forest.intact {roots : List Ref} {live : Ref → Prop} (h : s.Forest roots live)
    (hr : live r) :
    s.Intact r where
  grounded := h.grounded hr
  known {q} hq := by
    suffices live q from h.lt this
    induction hq using Relation.ReflTransGen.head_induction_on with
    | refl => exact hr
    | head hc _ ih => exact h.live_part ih hc

theorem data_deepCopy (h : s.Known q) : (s.deepCopy r).2.data q = s.data q := by
  rw [data, data, deepCopy, (grown_plant (s.tree r) s).node_old h]

theorem holds_deepCopy (s : Store) (r : Ref) :
    (s.deepCopy r).2.Holds (s.deepCopy r).1 (s.content r) :=
  holds_plant (s.tree r) (s.proper_treeWithin (s.size + 1) r) (.refl s _)

theorem Intact.holds_deepCopy (h : s.Intact w) (r : Ref) : (s.deepCopy r).2.Holds w (s.content w) :=
  Holds.of_data_eq (fun q => Relation.ReflTransGen s.Part q w) ⟨h.grounded, rfl⟩ .refl
    (fun hq hc => .head hc hq) fun hq => data_deepCopy (h.known hq)

theorem Intact.known_of_deepCopy (h : s.Intact w)
    (hq : Relation.ReflTransGen (s.deepCopy r).2.Part q w) : s.Known q := by
  suffices Relation.ReflTransGen s.Part q w from h.known this
  induction hq using Relation.ReflTransGen.head_induction_on with
  | refl => exact .refl
  | head hc _ ih =>
    rw [Part, data_deepCopy (h.known ih)] at hc
    exact .head hc ih

theorem fresh_of_deepCopy (hq : Relation.ReflTransGen (s.deepCopy r).2.Part q (s.deepCopy r).1) :
    Fresh s (s.deepCopy r).2 q := by
  have hgrown := grown_plant (s.tree r) s
  induction hq using Relation.ReflTransGen.head_induction_on with
  | refl => exact hgrown.root_fresh List.mem_cons_self
  | head hc _ ih =>
    obtain ⟨slot, hslot⟩ := Data.mem_children_iff.1 hc
    exact (hgrown.part_fresh ih hslot).1

end Store

/-- A value is equal to itself by its name, and to its copy just if there is no NaN in it; both
compare equal. Every value compares with the copy as with the original, and without a NaN it is
equal to both or to none. -/
theorem copies_in_comparisons {s : Store} {r : Ref} (hr : s.Intact r) :
    let copied := (s.deepCopy r).1
    let t := (s.deepCopy r).2
    (s.equal r r = true ∧ s.compare r r = .eq) ∧ t.compare r copied = .eq ∧
      (t.equal r copied = true ↔ (s.content r).NaNFree) ∧
      ∀ w, s.Intact w → t.compare w copied = s.compare w r ∧
        ((s.content r).NaNFree → t.equal w copied = s.equal w r) := by
  intro copied t
  have hcopy : t.Holds copied (s.content r) := s.holds_deepCopy r
  have hold : t.Holds r (s.content r) := hr.holds_deepCopy r
  have hsame : t.content r = t.content copied := hold.content_eq.trans hcopy.content_eq.symm
  have hself : s.equal r r = true := by
    rw [hr.grounded.equal_eq hr.grounded, decide_eq_true rfl, Bool.true_or]
  have hapart (q : Ref) (hq : Relation.ReflTransGen t.Part q r) :
      ¬ Relation.ReflTransGen t.Part q copied := fun hq' =>
    absurd (hr.known_of_deepCopy hq) (Nat.not_lt.2 (Store.fresh_of_deepCopy hq').1)
  refine ⟨⟨hself, s.compare_self r⟩,
    hold.grounded.compare_of_content_eq hcopy.grounded hsame, ?_,
    fun w hw => ?_⟩
  · rw [hold.grounded.equal_iff_nanFree hcopy.grounded hsame hapart, hold.content_eq]
  · have hw' : t.Holds w (s.content w) := hw.holds_deepCopy r
    refine ⟨hw'.grounded.compare_eq_of_contents hcopy.grounded hw.grounded
      hr.grounded hw'.content_eq hcopy.content_eq, fun hfree => ?_⟩
    exact hw'.grounded.equal_eq_of_contents hcopy.grounded hw.grounded hr.grounded hw'.content_eq
      hcopy.content_eq (hcopy.content_eq ▸ hfree)

/-- A slice with one and a half in it. -/
theorem copies_in_comparisons_slice :
    let s := (Session.start (.slice [.float ⟨0x3FF8000000000000⟩]) []).2.store
    s.Intact ⟨1⟩ ∧ (s.content ⟨1⟩).NaNFree ∧
    (s.deepCopy ⟨1⟩).2.equal ⟨1⟩ (s.deepCopy ⟨1⟩).1 = true := by
  intro s
  have hintact : s.Intact ⟨1⟩ :=
    (Session.Plain.start (.slice [.float ⟨0x3FF8000000000000⟩]) []).forest.intact
      (by decide +kernel)
  have hcontent : s.content ⟨1⟩ = .slice [.float ⟨0x3FF8000000000000⟩] := rfl
  have hfree : (s.content ⟨1⟩).NaNFree := by
    rw [hcontent]
    refine .slice fun c hc => ?_
    rw [List.mem_singleton.1 hc]
    exact .scalar fun x hx => by cases hx; decide +kernel
  obtain ⟨-, -, hequal, -⟩ := copies_in_comparisons hintact
  exact ⟨hintact, hfree, hequal.2 hfree⟩

/-- A slice with a NaN in it is equal to itself and not to its copy. -/
theorem not_equal_to_copy :
    let s := (Session.start (.slice [.float ⟨0x7FF8000000000000⟩]) []).2.store
    s.equal ⟨1⟩ ⟨1⟩ = true ∧
    (s.deepCopy ⟨1⟩).2.equal ⟨1⟩ (s.deepCopy ⟨1⟩).1 = false := by
  decide +kernel

end DocSelect
