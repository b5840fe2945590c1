import DocSelect.Proofs.Alike.Tree

/-!
# Changing alike stores alike

Each change of a store, made in both stores with alike data, leaves them alike. New nodes become a
further pair, so that the pairing only grows.
-/
namespace DocSelect

def Pairing.also (m : Pairing) (a b : Ref) : Pairing := fun x y => m x y ∨ (x = a ∧ y = b)

theorem Pairing.le_also (m : Pairing) (a b : Ref) : m ≤ m.also a b := fun _ _ h => .inl h

namespace Store.Alike

variable {m : Pairing} {s t : Store} {a b : Ref}

theorem add (h : s.Alike m t) {n n' : Node} (hd : n.data.Alike m n'.data)
    (hk : n.marks.Alike n'.marks) :
    Store.Alike (m.also (s.add n).1 (t.add n').1) (s.add n).2 (t.add n').2 := by
  have hle := m.le_also (s.add n).1 (t.add n').1
  have hold {x y : Ref} (hxy : m x y) :
      (s.add n).2.node x = s.node x ∧ (t.add n').2.node y = t.node y :=
    ⟨s.node_add_of_lt n (h.lt hxy).1, t.node_add_of_lt n' (h.lt hxy).2⟩
  have hnew {x y : Ref} (hxy : m x y) : x ≠ (s.add n).1 ∧ y ≠ (t.add n').1 := by
    refine ⟨fun heq => ?_, fun heq => ?_⟩
    · exact Nat.lt_irrefl _ (heq ▸ (h.lt hxy).1 : (s.add n).1.index < s.size)
    · exact Nat.lt_irrefl _ (heq ▸ (h.lt hxy).2 : (t.add n').1.index < t.size)
  have hgrounded {x y : Ref} (hxy : m x y) : (s.add n).2.Grounded x := by
    refine (h.grounded hxy).of_data_eq (fun x => ∃ y, m x y) ⟨y, hxy⟩ ?_ ?_
    · rintro x c ⟨y, hxy⟩ hc
      obtain ⟨d, -, hcd⟩ := exists_of_forall₂_left (h.data hxy).children hc
      exact ⟨d, hcd⟩
    · rintro x ⟨y, hxy⟩
      rw [Store.data, (hold hxy).1, Store.data]
  refine ⟨?_, ?_, ?_, ?_, ?_, ?_⟩
  · rintro x x' y (hxy | ⟨rfl, rfl⟩) (hxy' | ⟨rfl, hy⟩)
    · exact h.left hxy hxy'
    · exact absurd hy (hnew hxy).2
    · exact absurd rfl (hnew hxy').2
    · rfl
  · rintro x y y' (hxy | ⟨rfl, rfl⟩) (hxy' | ⟨hx, rfl⟩)
    · exact h.right hxy hxy'
    · exact absurd hx (hnew hxy).1
    · exact absurd rfl (hnew hxy').1
    · rfl
  · rintro x y (hxy | ⟨rfl, rfl⟩)
    · rw [size_add, size_add]
      exact ⟨Nat.lt_succ_of_lt (h.lt hxy).1, Nat.lt_succ_of_lt (h.lt hxy).2⟩
    · rw [size_add, size_add]
      exact ⟨Nat.lt_succ_self _, Nat.lt_succ_self _⟩
  · rintro x y (hxy | ⟨rfl, rfl⟩)
    · rw [Store.data, Store.data, (hold hxy).1, (hold hxy).2]
      exact (h.data hxy).mono hle
    · rw [Store.data, Store.data, node_add_self, node_add_self]
      exact hd.mono hle
  · rintro x y (hxy | ⟨rfl, rfl⟩)
    · rw [Store.marks, Store.marks, (hold hxy).1, (hold hxy).2]
      exact h.marks hxy
    · rw [Store.marks, Store.marks, node_add_self, node_add_self]
      exact hk
  · rintro x y (hxy | ⟨rfl, rfl⟩)
    · exact hgrounded hxy
    · refine ⟨_, fun c hc => ?_⟩
      rw [Part, Store.data, node_add_self] at hc
      obtain ⟨d, -, hcd⟩ := exists_of_forall₂_left hd.children hc
      exact hgrounded hcd

theorem mark (h : s.Alike m t) (hab : m a b) {f g : Marks → Marks}
    (hf : ∀ k k' : Marks, k.Alike k' → (f k).Alike (g k')) :
    Store.Alike m (s.mark a f) (t.mark b g) := by
  refine ⟨h.left, h.right, fun hxy => ?_, fun hxy => ?_, fun {x y} hxy => ?_, fun hxy => ?_⟩
  · simpa [Store.mark] using h.lt hxy
  · simpa [data_mark] using h.data hxy
  · by_cases hx : x = a
    · have hy := (h.same_iff hxy hab).1 hx
      subst hx hy
      simp only [Store.marks, Store.mark, node_modify_self _ _ (h.lt hab).1,
        node_modify_self _ _ (h.lt hab).2]
      exact hf _ _ (h.marks hab)
    · have hy := fun hy => hx ((h.same_iff hxy hab).2 hy)
      simp only [Store.marks, Store.mark, node_modify_of_ne _ _ hx, node_modify_of_ne _ _ hy]
      exact h.marks hxy
  · exact (h.grounded hxy).of_data_eq (fun _ => True) trivial (fun _ _ => trivial)
      fun _ => data_mark _ _ _ _

theorem markBranch (h : s.Alike m t) (hab : m a b) :
    Store.Alike m (s.markBranch a) (t.markBranch b) :=
  h.mark hab fun _ _ hk => ⟨rfl, hk.spread, hk.ignored⟩

theorem markSpread (h : s.Alike m t) (hab : m a b) :
    Store.Alike m (s.markSpread a) (t.markSpread b) :=
  h.mark hab fun _ _ hk => ⟨hk.branch, rfl, hk.ignored⟩

theorem clearSpread (h : s.Alike m t) (hab : m a b) :
    Store.Alike m (s.clearSpread a) (t.clearSpread b) :=
  h.mark hab fun _ _ hk => ⟨hk.branch, rfl, hk.ignored⟩

theorem markIgnored (h : s.Alike m t) (hab : m a b) :
    Store.Alike m (s.markIgnored a) (t.markIgnored b) :=
  h.mark hab fun _ _ hk => ⟨hk.branch, hk.spread, rfl⟩

theorem setData (h : s.Alike m t) (hab : m a b) {d d' : Data} (hd : d.Alike m d')
    (hground : ∀ c ∈ d.children, (s.setData a d).Grounded c) :
    Store.Alike m (s.setData a d) (t.setData b d') := by
  refine ⟨h.left, h.right, fun hxy => ?_, fun {x y} hxy => ?_, fun hxy => ?_, fun hxy => ?_⟩
  · simpa [Store.setData] using h.lt hxy
  · by_cases hx : x = a
    · have hy := (h.same_iff hxy hab).1 hx
      subst hx hy
      rwa [data_setData_self s d (h.lt hab).1, data_setData_self t d' (h.lt hab).2]
    · have hy := fun hy => hx ((h.same_iff hxy hab).2 hy)
      simp only [Store.data, Store.setData, node_modify_of_ne _ _ hx, node_modify_of_ne _ _ hy]
      exact h.data hxy
  · rw [marks_setData, marks_setData]
    exact h.marks hxy
  · exact (h.grounded hxy).setData hground

end Store.Alike

-- ---------------------------------------------------------------------------
-- New trees
-- ---------------------------------------------------------------------------

def Grows {α β : Type} (m : Pairing) (R : Pairing → α → β → Prop) (x : α × Store)
    (y : β × Store) : Prop :=
  ∃ m', m ≤ m' ∧ Store.Alike m' x.2 y.2 ∧ R m' x.1 y.1

namespace Store.Alike

variable {m : Pairing} {s t : Store}

theorem grows_add (h : s.Alike m t) {d d' : Data} {k k' : Marks} (hd : d.Alike m d')
    (hk : k.Alike k') : Grows m (fun m' => m') (s.add ⟨d, k⟩) (t.add ⟨d', k'⟩) :=
  ⟨_, m.le_also _ _, h.add hd hk, .inr ⟨rfl, rfl⟩⟩

theorem grows_new (h : s.Alike m t) {d d' : Data} (hd : d.Alike m d') :
    Grows m (fun m' => m') (s.new d) (t.new d') :=
  h.grows_add hd ⟨rfl, rfl, rfl⟩

mutual

theorem grows_build : (c : Content) → {m : Pairing} → {s t : Store} → s.Alike m t →
    Grows m (fun m' => m') (s.build c) (t.build c)
  | .scalar a, _, _, _, h => h.grows_new (.scalar a)
  | .slice items, _, _, _, h => by
    obtain ⟨m₁, hle, h₁, hr⟩ := grows_buildItems items h
    obtain ⟨m₂, hle', h₂, hr'⟩ := h₁.grows_new (.slice hr)
    exact ⟨m₂, hle.trans hle', h₂, hr'⟩
  | .map entries, _, _, _, h => by
    obtain ⟨m₁, hle, h₁, hr⟩ := grows_buildEntries entries h
    obtain ⟨m₂, hle', h₂, hr'⟩ := h₁.grows_new (.map (Dict.Alike.ofList hr))
    exact ⟨m₂, hle.trans hle', h₂, hr'⟩

theorem grows_buildItems : (cs : List Content) → {m : Pairing} →
    {s t : Store} → s.Alike m t →
    Grows m (fun m' => List.Forall₂ m') (s.buildItems cs) (t.buildItems cs)
  | [], m, _, _, h => ⟨m, le_refl m, h, .nil⟩
  | c :: cs, _, _, _, h => by
    obtain ⟨m₁, hle, h₁, hr⟩ := grows_build c h
    obtain ⟨m₂, hle', h₂, hrs⟩ := grows_buildItems cs h₁
    exact ⟨m₂, hle.trans hle', h₂, .cons (hle' _ _ hr) hrs⟩

theorem grows_buildEntries : (es : List (String × Content)) → {m : Pairing} → {s t : Store} →
    s.Alike m t → Grows m (fun m' => Assoc.Alike m') (s.buildEntries es) (t.buildEntries es)
  | [], m, _, _, h => ⟨m, le_refl m, h, .nil⟩
  | (_, c) :: es, _, _, _, h => by
    obtain ⟨m₁, hle, h₁, hr⟩ := grows_build c h
    obtain ⟨m₂, hle', h₂, hrs⟩ := grows_buildEntries es h₁
    exact ⟨m₂, hle.trans hle', h₂, .cons ⟨rfl, hle' _ _ hr⟩ hrs⟩

end

section
-- the pairing of the nodes in the trees does not matter for the new nodes
variable {l : Pairing}

mutual

theorem grows_plant : (u u' : Tree) → Tree.Alike l u u' → {m : Pairing} → {s t : Store} →
    s.Alike m t → Grows m (fun m' => m') (s.plant u) (t.plant u')
  | .scalar _ _ a, .scalar _ _ _, hu, _, _, _, h => by
    obtain ⟨-, hk, rfl⟩ := hu
    exact h.grows_add (.scalar a) hk
  | .slice _ _ us, .slice _ _ us', hu, _, _, _, h => by
    obtain ⟨m₁, hle, h₁, hr⟩ := grows_plantItems us us' hu.2.2 h
    obtain ⟨m₂, hle', h₂, hr'⟩ := h₁.grows_add (.slice hr) hu.2.1
    exact ⟨m₂, hle.trans hle', h₂, hr'⟩
  | .map _ _ es, .map _ _ es', hu, _, _, _, h => by
    obtain ⟨m₁, hle, h₁, hr⟩ := grows_plantEntries es es' hu.2.2 h
    obtain ⟨m₂, hle', h₂, hr'⟩ := h₁.grows_add (.map (Dict.Alike.ofList hr)) hu.2.1
    exact ⟨m₂, hle.trans hle', h₂, hr'⟩

theorem grows_plantItems : (us us' : List Tree) → Tree.AlikeItems l us us' → {m : Pairing} →
    {s t : Store} → s.Alike m t →
    Grows m (fun m' => List.Forall₂ m') (s.plantItems us) (t.plantItems us')
  | [], [], _, m, _, _, h => ⟨m, le_refl m, h, .nil⟩
  | u :: us, u' :: us', hu, _, _, _, h => by
    obtain ⟨m₁, hle, h₁, hr⟩ := grows_plant u u' hu.1 h
    obtain ⟨m₂, hle', h₂, hrs⟩ := grows_plantItems us us' hu.2 h₁
    exact ⟨m₂, hle.trans hle', h₂, .cons (hle' _ _ hr) hrs⟩

theorem grows_plantEntries : (es es' : List (String × Tree)) → Tree.AlikeEntries l es es' →
    {m : Pairing} → {s t : Store} → s.Alike m t →
    Grows m (fun m' => Assoc.Alike m') (s.plantEntries es) (t.plantEntries es')
  | [], [], _, m, _, _, h => ⟨m, le_refl m, h, .nil⟩
  | (_, u) :: es, (_, u') :: es', hu, _, _, _, h => by
    obtain ⟨m₁, hle, h₁, hr⟩ := grows_plant u u' hu.2.1 h
    obtain ⟨m₂, hle', h₂, hrs⟩ := grows_plantEntries es es' hu.2.2 h₁
    exact ⟨m₂, hle.trans hle', h₂, .cons ⟨hu.1, hle' _ _ hr⟩ hrs⟩

end

end

theorem grows_copyData (h : s.Alike m t) {a b : Ref} (hab : m a b) :
    Grows m (fun m' => Data.Alike m') (s.copyData a) (t.copyData b) := by
  have htree := h.tree hab
  unfold Store.copyData
  generalize s.tree a = u, t.tree b = u' at htree ⊢
  cases u <;> cases u' <;> simp only [Tree.Alike] at htree
  · obtain ⟨-, -, rfl⟩ := htree
    exact ⟨m, le_refl m, h, .scalar _⟩
  · obtain ⟨m', hle, h', hr⟩ := grows_plantItems _ _ htree.2.2 h
    exact ⟨m', hle, h', .slice hr⟩
  · obtain ⟨m', hle, h', hr⟩ := grows_plantEntries _ _ htree.2.2 h
    exact ⟨m', hle, h', .map (Dict.Alike.ofList hr)⟩

theorem set (h : s.Alike m t) {a b a' b' : Ref} (hab : m a b) (hab' : m a' b') :
    ∃ m', m ≤ m' ∧ Store.Alike m' (s.set a a') (t.set b b') := by
  obtain ⟨roots, hg, hd⟩ := grown_copyData s a'
  obtain ⟨m', hle, h', hdata⟩ := h.grows_copyData hab'
  refine ⟨m', hle, h'.setData (hle _ _ hab) hdata fun c hc => ?_⟩
  obtain ⟨slot, hslot⟩ := Data.mem_children_iff.1 hc
  exact hg.grounded (.setData (h.lt hab).1 _ _) (hg.root_fresh (hd.mem hslot))

end Store.Alike

end DocSelect
