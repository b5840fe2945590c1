import DocSelect.Proofs.Equality.Arrangement
import DocSelect.Proofs.Forest

/-!
# Equality and order of values

Equality looks up each key of one map in the other, and the order compares maps along their sorted
keys. For values without cycles and without floating point numbers both come to the same: they find
no difference just if the arranged contents are the same. So equality is an equivalence relation,
and neither of the two depends on the order of the entries of maps.

Floating point numbers are left out because they are equal to integers that are not equal to each
other, and because some of them are not equal to themselves.
-/
namespace DocSelect

-- ---------------------------------------------------------------------------
-- One level of equality
-- ---------------------------------------------------------------------------

namespace Scalar

variable {a b : Scalar} (ha : ∀ x, a ≠ .float x) (hb : ∀ x, b ≠ .float x)
include ha hb

theorem compare_eq_iff : a.compare b = .eq ↔ a = b := by
  refine ⟨fun h => ?_, fun h => h ▸ compare_self a⟩
  by_cases hrank : a.rank = b.rank
  · cases a <;> cases b <;> cases hrank
    case null.null.refl => rfl
    case bool.bool.refl p q =>
      cases p <;> cases q <;> first | rfl | exact absurd h (by decide)
    case int.int.refl i j =>
      exact congrArg int (Int64.toInt_inj.1 (Std.LawfulEqOrd.eq_of_compare h))
    case string.string.refl p q =>
      rw [compare, compareText_eq, Std.LawfulEqOrd.compare_eq_iff_eq] at h
      exact congrArg string h
    all_goals first | exact absurd rfl (ha _) | exact absurd rfl (hb _)
  · rw [compare_of_rank_ne hrank] at h
    exact absurd (Std.LawfulEqOrd.eq_of_compare h) hrank

theorem equal_iff : a.equal b = true ↔ a = b := by
  cases a <;> cases b <;>
    first | exact absurd rfl (ha _) | exact absurd rfl (hb _) | simp [equal]

end Scalar

def Data.equalWith (part : Ref → Ref → Bool) : Data → Data → Bool
  | scalar a, scalar b => a.equal b
  | slice items, slice others =>
    items.length == others.length && (items.zip others).all fun p => part p.1 p.2
  | map d, map d' =>
    d.size == d'.size && d.entries.all fun e =>
      match d'.find? e.1 with
      | some c => part e.2 c
      | none => false
  | _, _ => false

theorem Store.equalItems_eq {s : Store} (xs ys : List Ref) :
    Tree.equalItems (xs.map s.tree) (ys.map s.tree) = (xs.zip ys).all fun p => s.equal p.1 p.2 := by
  induction xs generalizing ys with
  | nil => rfl
  | cons x xs ih =>
    cases ys with
    | nil => rfl
    | cons y ys =>
      rw [List.map_cons, List.map_cons, Tree.equalItems, ih]
      rfl

theorem Store.equalEntries_eq {s : Store} (es others : List (String × Ref)) :
    Tree.equalEntries (es.map fun e => (e.1, s.tree e.2)) (others.map fun e => (e.1, s.tree e.2)) =
      es.all fun e =>
        match Assoc.find? e.1 others with
        | some c => s.equal e.2 c
        | none => false := by
  induction es with
  | nil => rfl
  | cons e es ih =>
    rw [List.map_cons, Tree.equalEntries, ih, Assoc.find?_map, List.all_cons]
    cases Assoc.find? e.1 others <;> rfl

theorem Store.Grounded.equal_eq {s : Store} {a b : Ref} (ha : s.Grounded a) (hb : s.Grounded b) :
    s.equal a b = (decide (a = b) || (s.data a).equalWith s.equal (s.data b)) := by
  rw [Store.equal, ha.tree_eq, hb.tree_eq]
  cases hd : s.data a <;> cases hd' : s.data b <;> simp only [Tree.equal, Tree.ref, Data.equalWith]
  case slice.slice items others =>
    rw [equalItems_eq, List.length_map, List.length_map]
    rfl
  case map.map d d' =>
    rw [equalEntries_eq, List.length_map, List.length_map]
    rfl
  all_goals rfl

-- ---------------------------------------------------------------------------
-- Equal data
-- ---------------------------------------------------------------------------

section
variable {f : Ref → Content} {part : Ref → Ref → Bool}

theorem map_entry_eq_iff {g : Ref → Content} {es os : List (String × Ref)} :
    (es.map fun e => (e.1, f e.2)) = (os.map fun e => (e.1, g e.2)) ↔
      es.map Prod.fst = os.map Prod.fst ∧ (es.map Prod.snd).map f = (os.map Prod.snd).map g := by
  induction es generalizing os with
  | nil => cases os <;> simp
  | cons e es ih =>
    cases os with
    | nil => simp
    | cons o os =>
      simp only [List.map_cons, List.cons.injEq, Prod.mk.injEq, ih]
      exact and_and_and_comm

theorem zip_all_iff {xs ys : List Ref}
    (h : ∀ x ∈ xs, ∀ y ∈ ys, part x y = true ↔ f x = f y) :
    (xs.length = ys.length ∧ ((xs.zip ys).all fun p => part p.1 p.2) = true) ↔
    xs.map f = ys.map f := by
  induction xs generalizing ys with
  | nil => cases ys <;> simp
  | cons x xs ih =>
    cases ys with
    | nil => simp
    | cons y ys =>
      have hrest :=
        ih fun a ha b hb => h a (List.mem_cons_of_mem _ ha) b (List.mem_cons_of_mem _ hb)
      simp only [List.length_cons, List.zip_cons_cons, List.all_cons,
        Bool.and_eq_true, List.map_cons,
        List.cons.injEq, Nat.add_right_cancel_iff, ← hrest,
          h x List.mem_cons_self y List.mem_cons_self]
      exact and_left_comm

/-- Maps of one size are equal if each entry of the first one has an equal one under its key: since
a map has no key twice, no entry of the second one is left over. -/
theorem Dict.equal_entries_iff {d d' : Dict Ref}
    (h : ∀ c ∈ d.values, ∀ c' ∈ d'.values, part c c' = true ↔ f c = f c') :
    (d.size = d'.size ∧ (d.entries.all fun e =>
        match d'.find? e.1 with
        | some c => part e.2 c
        | none => false) = true) ↔
      (d.entries.map fun e => (e.1, f e.2)).Perm (d'.entries.map fun e => (e.1, f e.2)) := by
  have hvalue {d : Dict Ref} {e : String × Ref} (he : e ∈ d.entries) : e.2 ∈ d.values :=
    List.mem_map_of_mem he
  rw [List.all_eq_true]
  constructor
  · rintro ⟨hsize, hall⟩
    have hnodup : (d.entries.map fun e => (e.1, f e.2)).Nodup := by
      refine List.Nodup.of_map Prod.fst ?_
      rw [List.map_map]
      exact d.nodup
    refine (List.subperm_of_subset hnodup fun p hp => ?_).perm_of_length_le ?_
    · obtain ⟨e, he, rfl⟩ := List.mem_map.1 hp
      have hequal := hall e he
      cases hfind : d'.find? e.1 with
      | none =>
        rw [hfind] at hequal
        cases hequal
      | some c =>
        rw [hfind] at hequal
        have hc := d'.mem_of_find? hfind
        rw [(h e.2 (hvalue he) c (hvalue hc)).1 hequal]
        exact List.mem_map_of_mem (f := fun e : String × Ref => (e.1, f e.2)) hc
    · rw [List.length_map, List.length_map]
      exact Nat.le_of_eq hsize.symm
  · intro hperm
    have hlength := hperm.length_eq
    rw [List.length_map, List.length_map] at hlength
    refine ⟨hlength, fun e he => ?_⟩
    have hmem :=
      hperm.mem_iff.1 (List.mem_map_of_mem (f := fun e : String × Ref => (e.1, f e.2)) he)
    obtain ⟨o, ho, heq⟩ := List.mem_map.1 hmem
    obtain ⟨hkey, hsame⟩ := Prod.mk.inj heq
    rw [← hkey, d'.find?_of_mem ho]
    exact (h e.2 (hvalue he) o.2 (hvalue ho)).2 hsame.symm

end

namespace Data

variable {d d' e e' : Data} {f g : Ref → Content}

theorem rank_eq_of_arrangedWith_eq (h : d.arrangedWith f = d'.arrangedWith g) :
    d.rank = d'.rank := by
  cases d <;> cases d' <;>
    simp only [arrangedWith, Content.scalar.injEq, reduceCtorEq] at h <;> simp only [rank, h]

section
variable (hd : ∀ x, d ≠ .scalar (.float x)) (hd' : ∀ x, d' ≠ .scalar (.float x))
include hd hd'

/-- Data compare equal just if they are the same once they are arranged, where that holds of their
parts. -/
theorem compareWith_eq_iff {part : Ref → Ref → Ordering}
    (h : ∀ c ∈ d.children, ∀ c' ∈ d'.children, part c c' = .eq ↔ f c = f c') :
    compareWith part d d' = .eq ↔ d.arrangedWith f = d'.arrangedWith f := by
  by_cases hrank : d.rank = d'.rank
  · have hlt (a : Scalar) : a.rank < 4 := a.rank_lt
    cases d <;> cases d' <;> simp only [rank] at hrank
    case scalar.scalar a b =>
      rw [compareWith, Scalar.compare_eq_iff (fun x hx => hd x (congrArg scalar hx))
        fun x hx => hd' x (congrArg scalar hx), arrangedWith, arrangedWith, Content.scalar.injEq]
    case slice.slice items others =>
      rw [compareWith, arrangedWith, arrangedWith, Content.slice.injEq]
      exact compareLex_eq_iff h
    case map.map e e' =>
      have hvalues : List.compareLex part (e.sorted.map Prod.snd) (e'.sorted.map Prod.snd) = .eq ↔
          (e.sorted.map Prod.snd).map f = (e'.sorted.map Prod.snd).map f :=
        compareLex_eq_iff fun c hc c' hc' =>
          h c (Dict.mem_values_of_sorted hc) c' (Dict.mem_values_of_sorted hc')
      rw [compareWith, Ordering.then_eq_eq, Ordering.then_eq_eq, Std.LawfulEqOrd.compare_eq_iff_eq,
        compareLex_text_eq_iff, hvalues, arrangedWith, arrangedWith, Content.map.injEq,
          map_entry_eq_iff]
      exact and_iff_right_of_imp fun heq => Dict.size_eq_of_sorted heq.1
    all_goals grind
  · refine iff_of_false (fun heq => hrank ?_) fun heq => hrank (rank_eq_of_arrangedWith_eq heq)
    rw [compareWith_of_rank_ne hrank] at heq
    exact Std.LawfulEqOrd.eq_of_compare heq

/-- Data are equal just if they are the same once they are arranged, where that holds of their
parts. -/
theorem equalWith_iff {part : Ref → Ref → Bool}
    (h : ∀ c ∈ d.children, ∀ c' ∈ d'.children, part c c' = true ↔ f c = f c') :
    equalWith part d d' = true ↔ d.arrangedWith f = d'.arrangedWith f := by
  cases d <;> cases d'
  case scalar.scalar a b =>
    rw [equalWith, Scalar.equal_iff (fun x hx => hd x (congrArg scalar hx))
      fun x hx => hd' x (congrArg scalar hx), arrangedWith, arrangedWith, Content.scalar.injEq]
  case slice.slice items others =>
    rw [equalWith, arrangedWith, arrangedWith, Content.slice.injEq, Bool.and_eq_true, beq_iff_eq]
    exact zip_all_iff h
  case map.map e e' =>
    rw [equalWith, arrangedWith, arrangedWith, Content.map.injEq, Dict.map_sorted_eq_iff_perm,
      Bool.and_eq_true, beq_iff_eq]
    exact Dict.equal_entries_iff h
  all_goals exact iff_of_false Bool.false_ne_true fun h => by cases h

end

/-- Data that are the same once they are arranged compare the same, where that holds of their
parts. -/
theorem compareWith_congr {part part' : Ref → Ref → Ordering}
    (hd : d.arrangedWith f = e.arrangedWith g) (hd' : d'.arrangedWith f = e'.arrangedWith g)
    (h : ∀ c ∈ d.children, ∀ c' ∈ d'.children, ∀ b ∈ e.children, ∀ b' ∈ e'.children,
      f c = g b → f c' = g b' → part c c' = part' b b') :
    compareWith part d d' = compareWith part' e e' := by
  by_cases hrank : d.rank = d'.rank
  · have hlt (a : Scalar) : a.rank < 4 := a.rank_lt
    cases d <;> cases d' <;> simp only [rank] at hrank
    case scalar.scalar a b =>
      cases e <;> cases hd
      cases e' <;> cases hd'
      rfl
    case slice.slice items items' =>
      cases e <;> simp only [arrangedWith, Content.slice.injEq, reduceCtorEq] at hd
      cases e' <;> simp only [arrangedWith, Content.slice.injEq, reduceCtorEq] at hd'
      exact compareLex_congr hd hd' h
    case map.map m m' =>
      cases e <;> simp only [arrangedWith, Content.map.injEq, reduceCtorEq] at hd
      cases e' <;> simp only [arrangedWith, Content.map.injEq, reduceCtorEq] at hd'
      rename_i n n'
      obtain ⟨hkeys, hvalues⟩ := map_entry_eq_iff.1 hd
      obtain ⟨hkeys', hvalues'⟩ := map_entry_eq_iff.1 hd'
      rw [compareWith, compareWith, Dict.size_eq_of_sorted hkeys,
        Dict.size_eq_of_sorted hkeys', hkeys,
        hkeys', compareLex_congr hvalues hvalues' fun c hc c' hc' b hb b' hb' =>
          h c (Dict.mem_values_of_sorted hc) c' (Dict.mem_values_of_sorted hc') b
            (Dict.mem_values_of_sorted hb) b' (Dict.mem_values_of_sorted hb')]
    all_goals grind
  · rw [compareWith_of_rank_ne hrank, compareWith_of_rank_ne, rank_eq_of_arrangedWith_eq hd,
      rank_eq_of_arrangedWith_eq hd']
    rwa [← rank_eq_of_arrangedWith_eq hd, ← rank_eq_of_arrangedWith_eq hd']

end Data

-- ---------------------------------------------------------------------------
-- Equal nodes
-- ---------------------------------------------------------------------------

namespace Store.Grounded

variable {s t : Store} {a b a' b' : Ref}

theorem compare_eq_iff (ha : s.Grounded a) (hb : s.Grounded b) (hfree : (s.content a).FloatFree)
    (hfree' : (s.content b).FloatFree) : s.compare a b = .eq ↔ s.arranged a = s.arranged b := by
  induction ha generalizing b with
  | intro a hparts ih =>
    have ha : s.Grounded a := ⟨a, hparts⟩
    obtain ⟨hscalar, hpart⟩ := ha.floatFree hfree
    obtain ⟨hscalar', hpart'⟩ := hb.floatFree hfree'
    rw [ha.compare_eq hb]
    split
    · rename_i heq
      rw [heq]
      exact iff_of_true rfl rfl
    · rw [ha.arranged_eq, hb.arranged_eq]
      exact Data.compareWith_eq_iff hscalar hscalar' fun c hc d hd =>
        ih c hc (hb.part hd) (hpart c hc) (hpart' d hd)

theorem equal_iff (ha : s.Grounded a) (hb : s.Grounded b) (hfree : (s.content a).FloatFree)
    (hfree' : (s.content b).FloatFree) : s.equal a b = true ↔ s.arranged a = s.arranged b := by
  induction ha generalizing b with
  | intro a hparts ih =>
    have ha : s.Grounded a := ⟨a, hparts⟩
    obtain ⟨hscalar, hpart⟩ := ha.floatFree hfree
    obtain ⟨hscalar', hpart'⟩ := hb.floatFree hfree'
    have hdata : (s.data a).equalWith s.equal (s.data b) = true ↔
        s.arranged a = s.arranged b := by
      rw [ha.arranged_eq, hb.arranged_eq]
      exact Data.equalWith_iff hscalar hscalar' fun c hc d hd =>
        ih c hc (hb.part hd) (hpart c hc) (hpart' d hd)
    rw [ha.equal_eq hb, Bool.or_eq_true, decide_eq_true_eq, hdata]
    exact or_iff_right_of_imp fun heq => heq ▸ rfl

theorem compare_congr (ha : s.Grounded a) (hb : s.Grounded b) (ha' : t.Grounded a')
    (hb' : t.Grounded b') (hfree : (s.content a).FloatFree) (hfree' : (s.content b).FloatFree)
    (tfree : (t.content a').FloatFree) (tfree' : (t.content b').FloatFree)
    (h : s.arranged a = t.arranged a') (h' : s.arranged b = t.arranged b') :
    s.compare a b = t.compare a' b' := by
  induction ha generalizing b a' b' with
  | intro a hparts ih =>
    have ha : s.Grounded a := ⟨a, hparts⟩
    by_cases heq : s.arranged a = s.arranged b
    · rw [(ha.compare_eq_iff hb hfree hfree').2 heq,
        (ha'.compare_eq_iff hb' tfree tfree').2 (h.symm.trans (heq.trans h'))]
    · have hab : a ≠ b := fun hab => heq (hab ▸ rfl)
      have hab' : a' ≠ b' := fun hab => heq (h.trans (hab ▸ h'.symm))
      rw [ha.compare_eq hb, ha'.compare_eq hb', if_neg hab, if_neg hab']
      rw [ha.arranged_eq, ha'.arranged_eq] at h
      rw [hb.arranged_eq, hb'.arranged_eq] at h'
      exact Data.compareWith_congr h h' fun c hc d hd c' hc' d' hd' =>
        ih c hc (hb.part hd) (ha'.part hc') (hb'.part hd') ((ha.floatFree hfree).2 c hc)
          ((hb.floatFree hfree').2 d hd) ((ha'.floatFree tfree).2 c' hc')
          ((hb'.floatFree tfree').2 d' hd')

end Store.Grounded

/-- Of values without cycles and without floating point numbers, those are equal that compare equal.
Equality is an equivalence relation, and values with the same entries in their maps, in whatever
order, are equal to the same values and compare with them the same. -/
theorem equality_of_values {s : Store} {a b c : Ref} (ha : s.Grounded a) (hb : s.Grounded b)
    (hc : s.Grounded c) (afree : (s.content a).FloatFree) (bfree : (s.content b).FloatFree)
    (cfree : (s.content c).FloatFree) :
    (s.compare a b = .eq ↔ s.equal a b = true) ∧
      (s.equal a a = true ∧ (s.equal a b = true → s.equal b a = true) ∧
        (s.equal a b = true → s.equal b c = true → s.equal a c = true)) ∧
      ∀ {t : Store} {a' b' : Ref}, t.Grounded a' → t.Grounded b' →
        Relation.ReflTransGen Content.Permuted (s.content a) (t.content a') →
        Relation.ReflTransGen Content.Permuted (s.content b) (t.content b') →
          t.compare a' b' = s.compare a b ∧ t.equal a' b' = s.equal a b := by
  simp only [ha.compare_eq_iff hb afree bfree, ha.equal_iff hb afree bfree,
    ha.equal_iff ha afree afree,
    hb.equal_iff ha bfree afree, hb.equal_iff hc bfree cfree, ha.equal_iff hc afree cfree]
  refine ⟨trivial, ⟨trivial, Eq.symm, Eq.trans⟩,
    fun {t a' b'} ha' hb' hpermuted hpermuted' => ?_⟩
  have afree' := Content.Permuted.floatFree_of_steps hpermuted afree
  have bfree' := Content.Permuted.floatFree_of_steps hpermuted' bfree
  have heq : s.arranged a = t.arranged a' := Content.Permuted.arranged_eq_of_steps hpermuted
  have heq' : s.arranged b = t.arranged b' := Content.Permuted.arranged_eq_of_steps hpermuted'
  refine ⟨(ha.compare_congr hb ha' hb' afree bfree afree' bfree' heq heq').symm, ?_⟩
  rw [Bool.eq_iff_iff, ha'.equal_iff hb' afree' bfree', ha.equal_iff hb afree bfree, heq, heq']

/-- Two maps with the same entries in another order, and so are those of a map in them. -/
theorem equality_of_values_permuted :
    let inner : Content := .map [("c", .int 2), ("d", .null)]
    let other : Content := .map [("d", .null), ("c", .int 2)]
    let first : Content := .map [("a", .int 1), ("b", inner)]
    let second : Content := .map [("b", other), ("a", .int 1)]
    let s := (Session.start (.slice [first, second]) []).2.store
    let t := (Session.start (.slice [second, first]) []).2.store
    (s.Grounded ⟨4⟩ ∧ s.Grounded ⟨9⟩ ∧ t.Grounded ⟨4⟩ ∧ t.Grounded ⟨9⟩) ∧
      ((s.content ⟨4⟩).FloatFree ∧ (s.content ⟨9⟩).FloatFree) ∧
      Relation.ReflTransGen Content.Permuted (s.content ⟨4⟩) (t.content ⟨4⟩) ∧
      Relation.ReflTransGen Content.Permuted (s.content ⟨9⟩) (t.content ⟨9⟩) ∧
      s.equal ⟨4⟩ ⟨9⟩ = true ∧ t.compare ⟨4⟩ ⟨9⟩ = .eq := by
  intro inner other first second s t
  have hgrounded (document : Content)
      {r : Ref} (hr : r.index < (Session.start document []).2.store.size) :
      (Session.start document []).2.store.Grounded r :=
    (Session.Plain.start document []).forest.grounded hr
  have hs : s.Grounded ⟨4⟩ ∧ s.Grounded ⟨9⟩ :=
    ⟨hgrounded _ (by decide +kernel), hgrounded _ (by decide +kernel)⟩
  have ht : t.Grounded ⟨4⟩ ∧ t.Grounded ⟨9⟩ :=
    ⟨hgrounded _ (by decide +kernel), hgrounded _ (by decide +kernel)⟩
  have hcontent : s.content ⟨4⟩ = first ∧ s.content ⟨9⟩ = second := ⟨by rfl, by rfl⟩
  have hcontent' : t.content ⟨4⟩ = second ∧ t.content ⟨9⟩ = first := ⟨by rfl, by rfl⟩
  have hfree : first.FloatFree := by
    refine .map fun e he => ?_
    rcases List.mem_pair.1 he with rfl | rfl
    · exact .scalar fun x => Scalar.noConfusion
    · refine .map fun e he => ?_
      rcases List.mem_pair.1 he with rfl | rfl <;> exact .scalar fun x => Scalar.noConfusion
  have hsteps : Relation.ReflTransGen Content.Permuted first second :=
    (Relation.ReflTransGen.single (.value "b" [("a", .int 1)] []
      (.entries (by decide +kernel) (List.Perm.swap ..)))).tail
        (.entries (by decide +kernel) (List.Perm.swap ..))
  have hback : Relation.ReflTransGen Content.Permuted second first :=
    (Relation.ReflTransGen.single (.entries (by decide +kernel) (List.Perm.swap ..))).tail
      (.value "b" [("a", .int 1)] [] (.entries (by decide +kernel) (List.Perm.swap ..)))
  have hfree' : second.FloatFree := Content.Permuted.floatFree_of_steps hsteps hfree
  rw [hcontent.1, hcontent.2, hcontent'.1, hcontent'.2]
  obtain ⟨hiff, -, hpermuted⟩ := equality_of_values hs.1 hs.2 hs.1 (hcontent.1 ▸ hfree)
    (hcontent.2 ▸ hfree') (hcontent.1 ▸ hfree)
  have hequal : s.equal ⟨4⟩ ⟨9⟩ = true := by decide +kernel
  obtain ⟨hcompare, -⟩ := hpermuted ht.1 ht.2 (by rwa [hcontent.1, hcontent'.1])
    (by rwa [hcontent.2, hcontent'.2])
  exact ⟨⟨hs.1, hs.2, ht⟩, ⟨hfree, hfree'⟩, hsteps, hback, hequal,
    hcompare.trans (hiff.2 hequal)⟩

end DocSelect
