import DocSelect.Proofs.Effects.Evaluation
import DocSelect.Proofs.Soundness.Copy

/-!
# Marks that nobody makes

New nodes are without marks or branches, and copies have the marks of what they are copied from. So
only a spread makes a spread, and only a call of the function for it marks a node as ignored: where
no node is marked in one of these ways, none is after an expression without such parts, assignments
or not.
-/
namespace DocSelect

variable {P : Marks → Prop}

namespace Tree

inductive Bears (P : Marks → Prop) : Tree → Prop
  | intro (t : Tree) (here : P t.marks) (parts : ∀ p ∈ t.parts, Bears P p) : Bears P t

end Tree

namespace Store

def Bears (P : Marks → Prop) (s : Store) : Prop := ∀ r, P (s.marks r)

variable {s : Store}

theorem bears_treeWithin (h : s.Bears P) (fuel : Nat) (r : Ref) :
    (s.treeWithin fuel r).Bears P := by
  induction fuel generalizing r with
  | zero => exact .intro _ (h r) fun _ hp => absurd hp List.not_mem_nil
  | succ fuel ih =>
    unfold treeWithin
    split
    · exact .intro _ (h r) fun _ hp => absurd hp List.not_mem_nil
    · refine .intro _ (h r) fun p hp => ?_
      obtain ⟨c, -, rfl⟩ := List.mem_map.1 hp
      exact ih c
    · refine .intro _ (h r) fun p hp => ?_
      obtain ⟨e, he, rfl⟩ := List.mem_map.1 hp
      obtain ⟨c, -, rfl⟩ := List.mem_map.1 he
      exact ih c.2

namespace Bears

theorem add (h : s.Bears P) {n : Node} (hn : P n.marks) : (s.add n).2.Bears P := by
  intro r
  by_cases hr : (s.add n).2.Known r
  · rcases known_add_cases hr with hr | rfl
    · rw [marks_add_of_known n hr]
      exact h r
    · rw [marks, node_add_self]
      exact hn
  · rw [marks_of_not_known hr, ← marks_of_not_known (s := s) (r := r)]
    · exact h r
    · exact fun hr' => hr ((s.onward_add n).known hr')

theorem mark (h : s.Bears P) {f : Marks → Marks} (hf : ∀ m, P m → P (f m)) (r : Ref) :
    (s.mark r f).Bears P := by
  intro q
  by_cases hq : q = r
  · subst hq
    by_cases hlt : q.index < s.size
    · rw [marks, Store.mark, node_modify_self s _ hlt]
      exact hf _ (h q)
    · have hlt' : ¬ (s.mark q f).Known q := by rwa [Known, Store.mark, size_modify]
      rw [marks_of_not_known hlt', ← marks_of_not_known hlt]
      exact h q
  · rw [marks, Store.mark, node_modify_of_ne s _ hq]
    exact h q

theorem clearSpread (h : s.Bears P) (hP : ∀ m, P m → P { m with spread := false }) (r : Ref) :
    (s.clearSpread r).Bears P := h.mark hP r

mutual

theorem plant : (t : Tree) → t.Bears P → {s : Store} → s.Bears P → (s.plant t).2.Bears P
  | .scalar .., .intro _ hm _, _, h => h.add hm
  | .slice _ _ items, .intro _ hm hp, _, h => (plantItems items hp h).add hm
  | .map _ _ entries, .intro _ hm hp, _, h =>
    (plantEntries entries (fun _ he => hp _ (List.mem_map_of_mem he)) h).add hm

theorem plantItems : (ts : List Tree) → (∀ t ∈ ts, t.Bears P) →
    {s : Store} → s.Bears P → (s.plantItems ts).2.Bears P
  | [], _, _, h => h
  | t :: ts, ht, _, h =>
    plantItems ts (fun u hu => ht u (List.mem_cons_of_mem _ hu))
      (plant t (ht t List.mem_cons_self) h)

theorem plantEntries : (es : List (String × Tree)) →
    (∀ e ∈ es, e.2.Bears P) → {s : Store} → s.Bears P → (s.plantEntries es).2.Bears P
  | [], _, _, h => h
  | (k, t) :: es, ht, _, h =>
    plantEntries es (fun e he => ht e (List.mem_cons_of_mem _ he))
      (plant t (ht (k, t) List.mem_cons_self) h)

end

theorem copyData (h : s.Bears P) (r : Ref) : (s.copyData r).2.Bears P := by
  obtain ⟨_, -, hparts⟩ : (s.tree r).Bears P := bears_treeWithin h _ r
  unfold Store.copyData
  cases ht : s.tree r with
  | scalar => exact h
  | slice => exact plantItems _ (fun t hmem => hparts t (by rwa [ht])) h
  | map =>
    exact plantEntries _ (fun e he => hparts e.2 (by rw [ht]; exact List.mem_map_of_mem he)) h

theorem set (h : s.Bears P) (target value : Ref) : (s.set target value).Bears P := by
  intro r
  have hmarks : (s.set target value).marks r = (s.copyData value).2.marks r := marks_setData ..
  rw [hmarks]
  exact h.copyData value r

end Bears

theorem lenient_bears (hnone : P Marks.none) : Lenient fun s t => s.Bears P → t.Bears P where
  refl _ h := h
  trans h k hs := k (h hs)
  new _ _ h := h.add hnone
  copy s r h := Bears.plant (s.tree r) (bears_treeWithin h _ r) h

end Store

-- ---------------------------------------------------------------------------
-- Evaluation
-- ---------------------------------------------------------------------------

structure Marks.Stable (P : Marks → Prop) : Prop where
  none : P Marks.none
  branch : P { Marks.none with branch := true }
  clearSpread (m : Marks) : P m → P { m with spread := false }

def Marks.Shown (m : Marks) : Prop := m.ignored = false

def Marks.Whole (m : Marks) : Prop := m.spread = false

theorem Marks.stable_shown : Stable Shown := ⟨rfl, rfl, fun _ h => h⟩

theorem Marks.stable_whole : Stable Whole := ⟨rfl, rfl, fun _ _ => rfl⟩

section
variable {files : FileSystem} {environment : Environment} {limit : Nat}

/-- What all nodes bear is borne by all after expressions without the parts that would change it. -/
theorem Marks.Stable.permits (hP : Marks.Stable P) {test : Expr → Bool}
    (hspread : test .spread = true → P { Marks.none with spread := true })
    (hignore : ∀ {arguments}, test (.call "ignore" arguments) = true →
      ∀ m, P m → P { m with ignored := true }) :
    Permits ⟨Registry.builtins files, environment, limit⟩
      (fun σ τ => σ.store.Bears P → τ.store.Bears P) test where
  refl _ h := h
  trans h k hs := k (h hs)
  new _ _ h := h.add hP.none
  branch _ _ h := h.add hP.branch
  clearSpread _ r h := h.clearSpread hP.clearSpread r
  spread ht _ _ h := h.add (hspread ht)
  assign _ := ⟨fun _ target value h => h.set target value, fun _ _ _ h => h.add hP.none⟩
  call ht hfind subject arguments σ h := by
    rcases Registry.builtins_lead (Store.lenient_bears hP.none) hfind with hf | ⟨rfl, rfl⟩
    · exact hf subject arguments σ.store h
    · exact h.mark (hignore ht) subject

theorem permits_ignoreFree : Permits ⟨Registry.builtins files, environment, limit⟩
    (fun σ τ => σ.store.Bears Marks.Shown → τ.store.Bears Marks.Shown)
    fun part => !part.isCallOf "ignore" :=
  Marks.stable_shown.permits (fun _ => rfl) fun h => absurd h Bool.false_ne_true

theorem permits_spreadFree : Permits ⟨Registry.builtins files, environment, limit⟩
    (fun σ τ => σ.store.Bears Marks.Whole → τ.store.Bears Marks.Whole) fun part =>
      !part.isSpread :=
  Marks.stable_whole.permits (fun h => absurd h Bool.false_ne_true) fun _ _ h => h

end

end DocSelect
