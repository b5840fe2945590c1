import DocSelect.Proofs.Copying
import DocSelect.Proofs.Order.Scalars

/-!
# One level of a comparison

How two nodes compare depends on their data and on how their parts compare. Slices compare their
elements in a row. So do maps, once it is settled that they have the same keys: then the values in
the order of their keys stand side by side, although each is looked up in the other map.
-/
namespace DocSelect

-- ---------------------------------------------------------------------------
-- Entries in the order of their keys
-- ---------------------------------------------------------------------------

theorem Assoc.find?_map {α β : Type} (f : α → β) (key : String)
    (entries : List (String × α)) :
    find? key (entries.map fun e => (e.1, f e.2)) = (find? key entries).map f := by
  induction entries with
  | nil => rfl
  | cons e rest ih =>
    by_cases hk : e.1 = key
    · simp [find?, hk]
    · simp [find?, hk, ih]

def Dict.sorted (d : Dict Ref) : List (String × Ref) :=
  d.entries.mergeSort fun a b => decide (¬ b.1 < a.1)

theorem Dict.map_sorted {α : Type} (d : Dict Ref) (f : Ref → α) :
    (d.sorted.map fun e => (e.1, f e.2)) =
      (d.entries.map fun e => (e.1, f e.2)).mergeSort fun a b => decide (¬ b.1 < a.1) :=
  List.map_mergeSort fun _ _ _ _ => rfl

/-- The key of an entry, and how its value compares with the one that other entries have for the
key. -/
def difference (cmp : Ref → Ref → Ordering) (others : List (String × Ref))
    (e : String × Ref) : String × Ordering :=
  (e.1, match Assoc.find? e.1 others with
    | some b => cmp e.2 b
    | none => .eq)

theorem Tree.compareTexts_eq (as bs : List String) :
    compareTexts as bs = List.compareLex Scalar.compareText as bs := by
  induction as generalizing bs with
  | nil => cases bs <;> rfl
  | cons a as ih =>
    cases bs with
    | nil => rfl
    | cons b bs => rw [compareTexts, ih, List.compareLex_cons_cons]

theorem compareLex_text_eq_iff {as bs : List String} :
    List.compareLex Scalar.compareText as bs = .eq ↔ as = bs := by
  have hlawful : Std.LawfulEqCmp (List.compareLex (compare : String → String → Ordering)) :=
    inferInstance
  exact hlawful.compare_eq_iff_eq

section
variable {cmp : Ref → Ref → Ordering} {es os others : List (String × Ref)}

/-- Where the same keys stand side by side, looking up a key finds the value at its side. -/
theorem foldl_difference (hkeys : es.map Prod.fst = os.map Prod.fst)
    (hfind : ∀ o ∈ os, Assoc.find? o.1 others = some o.2) (first : Ordering) :
    (es.map (difference cmp others)).foldl (fun o d => o.then d.2) first =
      first.then (List.compareLex cmp (es.map Prod.snd) (os.map Prod.snd)) := by
  induction es generalizing os first with
  | nil =>
    cases os with
    | nil => exact Ordering.then_eq.symm
    | cons => cases hkeys
  | cons e es ih =>
    cases os with
    | nil => cases hkeys
    | cons o os =>
      obtain ⟨hkey, hrest⟩ := List.cons.inj hkeys
      have hdifference : (difference cmp others e).2 = cmp e.2 o.2 := by
        rw [difference, hkey, hfind o List.mem_cons_self]
      rw [List.map_cons, List.foldl_cons, ih hrest fun p hp => hfind p (List.mem_cons_of_mem _ hp),
        hdifference, Ordering.then_assoc, List.map_cons, List.map_cons, List.compareLex_cons_cons]

end

namespace Store

variable {s : Store}

theorem compareItems_eq (xs ys : List Ref) :
    Tree.compareItems (xs.map s.tree) (ys.map s.tree) = List.compareLex s.compare xs ys := by
  induction xs generalizing ys with
  | nil => cases ys <;> rfl
  | cons x xs ih =>
    cases ys with
    | nil => rfl
    | cons y ys =>
      rw [List.map_cons, List.map_cons, Tree.compareItems, ih, List.compareLex_cons_cons]
      rfl

theorem compareEntries_eq {es others : List (String × Ref)}
    (h : ∀ e ∈ es, e.1 ∈ Assoc.keys others) :
    Tree.compareEntries (es.map fun e => (e.1, s.tree e.2))
      (others.map fun e => (e.1, s.tree e.2)) = es.map (difference s.compare others) := by
  induction es with
  | nil => rfl
  | cons e es ih =>
    obtain ⟨b, hb⟩ := Option.ne_none_iff_exists'.1
      fun hnone => Assoc.find?_eq_none_iff.1 hnone (h e List.mem_cons_self)
    rw [List.map_cons, List.map_cons, Tree.compareEntries,
      ih fun e he => h e (List.mem_cons_of_mem _ he), Assoc.find?_map, hb, difference, hb]
    rfl

theorem sortedKeys_eq (d : Dict Ref) :
    Tree.sortedKeys (d.entries.map fun e => (e.1, s.tree e.2)) = d.sorted.map Prod.fst := by
  have hkeys : Assoc.keys (d.entries.map fun e => (e.1, s.tree e.2)) = d.entries.map Prod.fst := by
    simp [Assoc.keys]
  rw [Tree.sortedKeys, hkeys]
  exact (List.map_mergeSort (f := Prod.fst) fun _ _ _ _ => rfl).symm

/-- Maps with the same keys differ first where their values in the order of the keys do. -/
theorem firstDifference_eq {d d' : Dict Ref}
    (hkeys : d.sorted.map Prod.fst = d'.sorted.map Prod.fst) :
    Tree.firstDifference (Tree.compareEntries (d.entries.map fun e => (e.1, s.tree e.2))
        (d'.entries.map fun e => (e.1, s.tree e.2))) =
      List.compareLex s.compare (d.sorted.map Prod.snd) (d'.sorted.map Prod.snd) := by
  have hsorted (d : Dict Ref) : d.sorted.Perm d.entries := List.mergeSort_perm _ _
  have hmem : ∀ e ∈ d.entries, e.1 ∈ Assoc.keys d'.entries := fun e he => by
    have hkey : e.1 ∈ d'.sorted.map Prod.fst :=
      hkeys ▸ List.mem_map_of_mem ((hsorted d).mem_iff.2 he)
    exact ((hsorted d').map Prod.fst).mem_iff.1 hkey
  have hfind : ∀ o ∈ d'.sorted, Assoc.find? o.1 d'.entries = some o.2 := fun o ho =>
    Assoc.find?_of_mem d'.nodup ((hsorted d').mem_iff.1 ho)
  have hsort : (d.entries.map (difference s.compare d'.entries)).mergeSort
      (fun a b => decide (¬ b.1 < a.1)) = d.sorted.map (difference s.compare d'.entries) :=
    (List.map_mergeSort (f := difference s.compare d'.entries) fun _ _ _ _ => rfl).symm
  rw [compareEntries_eq hmem, Tree.firstDifference, hsort]
  exact foldl_difference hkeys hfind .eq

end Store

-- ---------------------------------------------------------------------------
-- Nodes
-- ---------------------------------------------------------------------------

namespace Data

def rank : Data → Nat
  | scalar a => a.rank
  | slice _ => 4
  | map _ => 5

def compareWith (part : Ref → Ref → Ordering) : Data → Data → Ordering
  | scalar a, scalar b => a.compare b
  | slice items, slice others => List.compareLex part items others
  | map d, map d' =>
    (compare d.size d'.size).then
      ((List.compareLex Scalar.compareText (d.sorted.map Prod.fst) (d'.sorted.map Prod.fst)).then
        (List.compareLex part (d.sorted.map Prod.snd) (d'.sorted.map Prod.snd)))
  | d, d' => compare d.rank d'.rank

end Data

theorem then_congr_right {o p q : Ordering} (h : o = .eq → p = q) : o.then p = o.then q := by
  cases o
  case eq => exact h rfl
  all_goals rfl

theorem Store.Grounded.compare_eq {s : Store} {a b : Ref} (ha : s.Grounded a) (hb : s.Grounded b) :
    s.compare a b = if a = b then .eq else (s.data a).compareWith s.compare (s.data b) := by
  rw [Store.compare, ha.tree_eq, hb.tree_eq]
  cases hd : s.data a <;> cases hd' : s.data b <;>
    simp only [Tree.compare, Tree.ref, Data.compareWith]
  case slice.slice items others =>
    rw [compareItems_eq]
    rfl
  case map.map d d' =>
    rw [sortedKeys_eq, sortedKeys_eq, Tree.compareTexts_eq, List.length_map, List.length_map]
    congr 2
    exact then_congr_right fun hkeys => firstDifference_eq (compareLex_text_eq_iff.1 hkeys)
  all_goals rfl

-- ---------------------------------------------------------------------------
-- How the comparisons of data fit together
-- ---------------------------------------------------------------------------

theorem Dict.mem_values_of_sorted {d : Dict Ref} {c : Ref} (h : c ∈ d.sorted.map Prod.snd) :
    c ∈ d.values :=
  ((List.mergeSort_perm _ _).map Prod.snd).mem_iff.1 h

namespace Data

variable {part : Ref → Ref → Ordering} {d d' d'' : Data}

theorem compareWith_swap
    (h : ∀ c ∈ d.children, ∀ c' ∈ d'.children, part c' c = (part c c').swap) :
    compareWith part d' d = (compareWith part d d').swap := by
  have htexts (as bs : List String) : List.compareLex Scalar.compareText bs as =
      (List.compareLex Scalar.compareText as bs).swap :=
    compareLex_swap fun a _ b _ => (Std.OrientedOrd.eq_swap : compare b a = (compare a b).swap)
  cases d <;> cases d' <;> simp only [compareWith]
  case scalar.scalar a b => exact Scalar.compare_swap a b
  case slice.slice items others => exact compareLex_swap h
  case map.map e e' =>
    have hvalues : ∀ c ∈ e.sorted.map Prod.snd, ∀ c' ∈ e'.sorted.map Prod.snd,
        part c' c = (part c c').swap := fun c hc c' hc' =>
      h c (Dict.mem_values_of_sorted hc) c' (Dict.mem_values_of_sorted hc')
    rw [Ordering.swap_then, Ordering.swap_then, ← htexts, ← compareLex_swap hvalues,
      ← Std.OrientedOrd.eq_swap]
  all_goals exact Std.OrientedOrd.eq_swap

theorem compareWith_of_content_eq {f : Ref → Content} (heq : d.contentWith f = d'.contentWith f)
    (h : ∀ c ∈ d.children, ∀ c' ∈ d'.children, f c = f c' → part c c' = .eq) :
    compareWith part d d' = .eq := by
  cases d <;> cases d' <;> simp only [contentWith, Content.scalar.injEq, Content.slice.injEq,
    Content.map.injEq, reduceCtorEq] at heq
  case scalar.scalar a b =>
    rw [heq]
    exact Scalar.compare_self b
  case slice.slice items others => exact compareLex_eq_of_map_eq heq h
  case map.map e e' =>
    have hentries : e.sorted.map (fun e => (e.1, f e.2)) = e'.sorted.map fun e => (e.1, f e.2) := by
      rw [Dict.map_sorted, Dict.map_sorted, heq]
    have hkeys : e.sorted.map Prod.fst = e'.sorted.map Prod.fst := by
      have hfst := congrArg (List.map Prod.fst) hentries
      rwa [List.map_map, List.map_map] at hfst
    have hvalues : (e.sorted.map Prod.snd).map f = (e'.sorted.map Prod.snd).map f := by
      have hsnd := congrArg (List.map Prod.snd) hentries
      rw [List.map_map, List.map_map] at hsnd ⊢
      exact hsnd
    have hsize : e.size = e'.size := by
      have hlength := congrArg List.length heq
      rwa [List.length_map, List.length_map] at hlength
    rw [compareWith, hsize, Std.ReflOrd.compare_self, compareLex_text_eq_iff.2 hkeys]
    exact compareLex_eq_of_map_eq hvalues fun c hc c' hc' => h c (Dict.mem_values_of_sorted hc) c'
      (Dict.mem_values_of_sorted hc')

theorem compareWith_of_rank_ne (h : d.rank ≠ d'.rank) :
    compareWith part d d' = compare d.rank d'.rank := by
  cases d <;> cases d' <;> first | rfl | exact absurd rfl h | skip
  exact Scalar.compare_of_rank_ne h

theorem compareWith_eq_then (part : Ref → Ref → Ordering) (d d' : Data) :
    compareWith part d d' = (compare d.rank d'.rank).then (compareWith part d d') := by
  by_cases hrank : d.rank = d'.rank
  · rw [hrank, Std.ReflOrd.compare_self]
    rfl
  · rw [compareWith_of_rank_ne hrank]
    cases compare d.rank d'.rank <;> rfl

theorem compareWith_coherent
    (hscalar : Discernible fun a => d = .scalar a ∨ d' = .scalar a ∨ d'' = .scalar a)
    (h : ∀ c ∈ d.children, ∀ c' ∈ d'.children, ∀ c'' ∈ d''.children,
      Coherent (part c c') (part c' c'') (part c c'')) :
    Coherent (compareWith part d d') (compareWith part d' d'') (compareWith part d d'') := by
  rw [compareWith_eq_then part d, compareWith_eq_then part d', compareWith_eq_then part d d'']
  refine (Coherent.of_keys d.rank d'.rank d''.rank).lex fun hrank hrank' => ?_
  rw [Std.LawfulEqOrd.compare_eq_iff_eq] at hrank hrank'
  have hlt (a : Scalar) : a.rank < 4 := a.rank_lt
  cases d <;> cases d' <;> simp only [rank] at hrank <;> cases d'' <;> simp only [rank] at hrank'
  case scalar.scalar.scalar a b c =>
    refine Scalar.coherent hrank hrank' (hscalar.mono ?_)
    rintro x (rfl | rfl | rfl) <;> simp
  case slice.slice.slice items items' items'' => exact compareLex_coherent h
  case map.map.map e e' e'' =>
    refine (Coherent.of_keys e.size e'.size e''.size).lex fun _ _ => ?_
    refine Coherent.lex (compareLex_coherent fun k _ k' _ k'' _ => .of_keys k k' k'') fun _ _ => ?_
    exact compareLex_coherent fun c hc c' hc' c'' hc'' => h c (Dict.mem_values_of_sorted hc) c'
      (Dict.mem_values_of_sorted hc') c'' (Dict.mem_values_of_sorted hc'')
  all_goals grind

end Data

end DocSelect
