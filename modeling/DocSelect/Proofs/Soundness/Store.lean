import DocSelect.Proofs.Grounded
import DocSelect.Value.Range

/-!
# Sound stores

What every store keeps by itself: the parts of nodes are nodes of the store, no path goes down
without end, and a branch is a slice with no other branch among its elements. It is kept by each way
in which evaluation changes a store: adding a node whose parts are there, changing marks, and
writing a copy.

Where it is asked for, a sound store also holds no part that is marked as a spread.
-/
namespace DocSelect

/-- What a proof about evaluation is after, besides a sound store. -/
inductive Concern where
  | soundness
  /-- no part of a container is marked as a spread -/
  | spreads
  /-- evaluation comes to an end -/
  | ending
  deriving DecidableEq

theorem Except.bind_eq_ok_iff {ε α β : Type} {x : Except ε α} {f : α → Except ε β}
    {b : β} : x >>= f = .ok b ↔ ∃ a, x = .ok a ∧ f a = .ok b := by
  cases x <;> simp [bind, Except.bind]

theorem Dict.mem_values_insertAll {d : Dict Ref} {entries : List (String × Ref)} {r : Ref}
    (h : r ∈ (d.insertAll entries).values) : r ∈ d.values ∨ r ∈ entries.map Prod.snd := by
  obtain ⟨⟨key, _⟩, hmem, rfl⟩ := List.mem_map.1 h
  rcases Dict.mem_of_find?_insertAll (Dict.find?_of_mem _ hmem) with h | h
  · exact .inl (List.mem_map.2 ⟨_, d.mem_of_find? h, rfl⟩)
  · exact .inr (List.mem_map.2 ⟨_, h, rfl⟩)

theorem Dict.mem_values_insert {d : Dict Ref} {key : String} {r value : Ref}
    (h : r ∈ (d.insert key value).values) : r ∈ d.values ∨ r = value := by
  have hall : r ∈ (d.insertAll [(key, value)]).values := h
  exact (mem_values_insertAll hall).imp_right List.mem_singleton.1

theorem Dict.mem_of_mem_values_ofList {entries : List (String × Ref)} {r : Ref}
    (h : r ∈ (Dict.ofList entries).values) : r ∈ entries.map Prod.snd :=
  (mem_values_insertAll h).resolve_left List.not_mem_nil

namespace Store

def Known (s : Store) (r : Ref) : Prop := r.index < s.size

def Settled (s : Store) : Prop := ∀ r c, s.Part c r → s.isSpread c = false

def Calm (s : Store) : Prop := ∀ r c, s.isBranch r = true → s.Part c r → s.isSpread c = false

/-- A branch is a slice, and no element of it is a branch. -/
def Flat (s : Store) : Prop :=
  ∀ r, s.isBranch r = true → ∃ items, s.data r = .slice items ∧
    ∀ c ∈ items, s.isBranch c = false

structure Sound (w : Concern) (s : Store) : Prop where
  part_known {r c : Ref} : s.Part c r → s.Known c
  grounded (r : Ref) : s.Grounded r
  flat : s.Flat
  settled : w = .spreads → s.Settled

structure Fit (w : Concern) (s : Store) (r : Ref) : Prop where
  known : s.Known r
  settled : w = .spreads → s.isSpread r = false

structure Single (s : Store) (r : Ref) : Prop where
  known : s.Known r
  not_branch : s.isBranch r = false

/-- A store as it may be found later: nodes are still there, and have not become branches or
spreads. -/
structure Onward (s t : Store) : Prop where
  size_le : s.size ≤ t.size
  branch {r : Ref} : s.Known r → t.isBranch r = s.isBranch r
  spread {r : Ref} : s.Known r → s.isSpread r = false → t.isSpread r = false

variable {w : Concern} {s t u : Store} {r c : Ref}

-- ---------------------------------------------------------------------------
-- Later stores
-- ---------------------------------------------------------------------------

namespace Onward

theorem refl (s : Store) : s.Onward s := ⟨Nat.le_refl _, fun _ => rfl, fun _ h => h⟩

theorem known (h : s.Onward t) (hr : s.Known r) : t.Known r := Nat.lt_of_lt_of_le hr h.size_le

theorem trans (h : s.Onward t) (k : t.Onward u) : s.Onward u where
  size_le := Nat.le_trans h.size_le k.size_le
  branch hr := (k.branch (h.known hr)).trans (h.branch hr)
  spread hr hs := k.spread (h.known hr) (h.spread hr hs)

theorem fit (h : s.Onward t) (hr : s.Fit w r) : t.Fit w r :=
  ⟨h.known hr.known, fun hw => h.spread hr.known (hr.settled hw)⟩

theorem single (h : s.Onward t) (hr : s.Single r) : t.Single r :=
  ⟨h.known hr.known, (h.branch hr.known).trans hr.not_branch⟩

theorem of_marks (hsize : s.size ≤ t.size) (hm : ∀ r, s.Known r → t.marks r = s.marks r) :
    s.Onward t where
  size_le := hsize
  branch hr := by rw [isBranch, hm _ hr, isBranch]
  spread hr hs := by rwa [isSpread, hm _ hr]

theorem of_grown {roots : List Ref} (h : Grown s t roots) : s.Onward t :=
  of_marks h.size_le fun r hr => by rw [marks, h.node_old hr, marks]

theorem setData (s : Store) (r : Ref) (d : Data) : s.Onward (s.setData r d) :=
  of_marks (Nat.le_of_eq (s.size_modify r _).symm) fun q _ => marks_setData s q r d

end Onward

theorem marks_add_of_known (n : Node) (hr : s.Known r) : (s.add n).2.marks r = s.marks r := by
  rw [marks, s.node_add_of_lt n hr, marks]

theorem data_add_of_known (n : Node) (hr : s.Known r) : (s.add n).2.data r = s.data r := by
  rw [data, s.node_add_of_lt n hr, data]

theorem onward_add (s : Store) (n : Node) : s.Onward (s.add n).2 :=
  .of_marks (by rw [size_add]; exact Nat.le_succ _) fun _ hr => marks_add_of_known n hr

theorem known_add_self (s : Store) (n : Node) : (s.add n).2.Known (s.add n).1 := by
  rw [Known, size_add]
  exact Nat.lt_succ_self _

theorem data_new_self (s : Store) (d : Data) : (s.new d).2.data (s.new d).1 = d := by
  rw [Store.new, data, node_add_self]

theorem marks_new_self (s : Store) (d : Data) : (s.new d).2.marks (s.new d).1 = Marks.none := by
  rw [Store.new, marks, node_add_self]

theorem known_add_cases {n : Node} (h : (s.add n).2.Known r) : s.Known r ∨ r = (s.add n).1 := by
  by_cases hlt : s.Known r
  · exact .inl hlt
  · rw [Known, size_add] at h
    refine .inr ?_
    cases r
    simp only [add, Ref.mk.injEq]
    exact Nat.le_antisymm (Nat.le_of_lt_succ h) (Nat.le_of_not_lt hlt)

theorem marks_of_not_known (h : ¬ s.Known r) : s.marks r = Marks.none := by
  have hge : s.nodes.size ≤ r.index := Nat.le_of_not_lt h
  rw [marks, node, Array.getElem?_eq_none_iff.2 hge]
  rfl

theorem known_of_isBranch (h : s.isBranch r = true) : s.Known r := by
  by_contra hr
  rw [isBranch, marks_of_not_known hr] at h
  exact Bool.false_ne_true h

-- ---------------------------------------------------------------------------
-- Reading parts
-- ---------------------------------------------------------------------------

theorem part_of_items? {items : List Ref} (h : s.items? r = .ok items) (hc : c ∈ items) :
    s.Part c r := by
  rwa [Part, children_of_items? h]

theorem part_of_entries? {entries : Dict Ref} (h : s.entries? r = .ok entries)
    (hc : c ∈ entries.values) : s.Part c r := by
  unfold entries? at h
  split at h
  · rename_i hd
    cases h
    rwa [Part, hd]
  · cases h

theorem part_of_key? {key : String} (h : s.key? r key = .ok c) : s.Part c r := by
  obtain ⟨entries, he, h⟩ := Except.bind_eq_ok_iff.1 h
  split at h
  · rename_i hfind
    cases h
    exact part_of_entries? he (List.mem_map.2 ⟨_, entries.mem_of_find? hfind, rfl⟩)
  · cases h

theorem part_of_item? {i : Int64} (h : s.item? r i = .ok c) : s.Part c r := by
  obtain ⟨items, hi, h⟩ := Except.bind_eq_ok_iff.1 h
  obtain ⟨p, -, h⟩ := Except.bind_eq_ok_iff.1 h
  split at h
  · rename_i hget
    cases h
    exact part_of_items? hi (List.mem_of_getElem? hget)
  · cases h

theorem mem_of_mem_between {α : Type} {start stop : Nat} {x : α} {xs : List α}
    (h : x ∈ between start stop xs) : x ∈ xs := by
  unfold between at h
  split at h
  · exact List.mem_of_mem_drop (List.mem_of_mem_take h)
  · exact List.mem_of_mem_drop (List.mem_of_mem_take (List.mem_reverse.1 h))

theorem exists_between_of_range? {α : Type} {start stop : Option Int64} {xs ys : List α}
    (h : DocSelect.range? start stop xs = .ok ys) : ∃ first last, ys = between first last xs := by
  unfold DocSelect.range? at h
  split at h
  · rename_i hempty
    cases h
    rw [List.isEmpty_iff.1 hempty]
    exact ⟨0, 0, rfl⟩
  · cases start <;> cases stop <;> simp [Except.bind_eq_ok_iff, pure, Except.pure] at h <;> grind

theorem mem_of_mem_range? {α : Type} {start stop : Option Int64} {x : α} {xs ys : List α}
    (h : DocSelect.range? start stop xs = .ok ys) (hx : x ∈ ys) : x ∈ xs := by
  obtain ⟨first, last, rfl⟩ := exists_between_of_range? h
  exact mem_of_mem_between hx

theorem part_of_range? {start stop : Option Int64} {d : Data} (h : s.range? r start stop = .ok d)
    (hc : c ∈ d.children) : s.Part c r := by
  unfold Store.range? at h
  split at h
  · rename_i items hd
    obtain ⟨ys, hr, h⟩ := Except.bind_eq_ok_iff.1 h
    cases h
    rw [Part, hd]
    exact mem_of_mem_range? hr hc
  · obtain ⟨ys, -, h⟩ := Except.bind_eq_ok_iff.1 h
    cases h
    exact absurd hc List.not_mem_nil
  · cases h

-- ---------------------------------------------------------------------------
-- Reading a sound store
-- ---------------------------------------------------------------------------

namespace Sound

variable (h : s.Sound w)
include h

theorem part_fit (hc : s.Part c r) : s.Fit w c :=
  ⟨h.part_known hc, fun hw => h.settled hw r c hc⟩

theorem child_fit : ∀ c ∈ (s.data r).children, s.Fit w c := fun _ hc => h.part_fit hc

theorem item_fit {items : List Ref} (hd : s.data r = .slice items) : ∀ c ∈ items, s.Fit w c :=
  fun c hc => h.part_fit (r := r) (by rwa [Part, hd])

theorem entry_fit {entries : Dict Ref} (hd : s.data r = .map entries) :
    ∀ c ∈ entries.values, s.Fit w c :=
  fun c hc => h.part_fit (r := r) (by rwa [Part, hd])

theorem element_single (hb : s.isBranch r = true) (hc : s.Part c r) : s.Single c := by
  obtain ⟨items, hd, hitems⟩ := h.flat r hb
  rw [Part, hd] at hc
  exact ⟨h.part_known (r := r) (by rwa [Part, hd]), hitems c hc⟩

theorem flatten_eq : s.flatten r = .ok (if s.isBranch r then (s.data r).children else [r]) := by
  rw [(h.grounded r).flatten_eq]
  rcases hb : s.isBranch r with _ | _
  · rfl
  · obtain ⟨items, hd, hitems⟩ := h.flat r hb
    have hsingle : ∀ c ∈ items, s.flatten c = .ok [c] := fun c hc => by
      rw [(h.grounded c).flatten_eq, hitems c hc]
      rfl
    have hall : items.mapM s.flatten = .ok (items.map fun c => [c]) := by
      rw [mapM_congr_mem (g := fun c => .ok [c]) hsingle]
      exact List.mapM_pure
    simp [items?, hd, hall, Data.children, bind, Except.bind, pure, Except.pure,
      ← List.flatMap_def]

theorem flatten_single {items : List Ref} (hr : s.Known r) (hf : s.flatten r = .ok items) :
    ∀ c ∈ items, s.Single c := by
  rw [h.flatten_eq] at hf
  cases hf
  intro c hc
  split at hc
  · rename_i hb
    exact h.element_single hb hc
  · rename_i hb
    rw [List.mem_singleton.1 hc]
    exact ⟨hr, Bool.eq_false_iff.2 hb⟩

theorem flatten_fit {items : List Ref} (hr : s.Fit w r) (hf : s.flatten r = .ok items) :
    ∀ c ∈ items, s.Fit w c := by
  rw [h.flatten_eq] at hf
  cases hf
  intro c hc
  split at hc
  · exact h.part_fit hc
  · rwa [List.mem_singleton.1 hc]

end Sound

-- ---------------------------------------------------------------------------
-- Changing a sound store
-- ---------------------------------------------------------------------------

namespace Sound

theorem add (h : s.Sound w) {n : Node} (hparts : ∀ c ∈ n.data.children, s.Fit w c)
    (hbranch : n.marks.branch = true →
      ∃ items, n.data = .slice items ∧ ∀ c ∈ items, s.isBranch c = false) :
    (s.add n).2.Sound w := by
  have hon := s.onward_add n
  have hself : (s.add n).2.data (s.add n).1 = n.data := by rw [data, node_add_self]
  -- the parts of all nodes, the new one included, are nodes that were there
  have hfit {r c : Ref} (hc : (s.add n).2.Part c r) : s.Fit w c := by
    rcases known_add_cases hc.lt with hr | rfl
    · rw [Part, data_add_of_known n hr] at hc
      exact h.part_fit hc
    · rw [Part, hself] at hc
      exact hparts c hc
  have hgrounded {r : Ref} (hr : s.Known r) : (s.add n).2.Grounded r :=
    (h.grounded r).of_data_eq s.Known hr (fun _ hc => h.part_known hc)
      fun ha => data_add_of_known n ha
  refine ⟨fun hc => hon.known (hfit hc).known, fun r => ?_, fun r hb => ?_, fun hw r c hc => ?_⟩
  · exact ⟨r, fun c hc => hgrounded (hfit hc).known⟩
  · rcases known_add_cases (known_of_isBranch hb) with hr | rfl
    · rw [hon.branch hr] at hb
      obtain ⟨items, hd, hitems⟩ := h.flat r hb
      refine ⟨items, by rwa [data_add_of_known n hr], fun c hc => ?_⟩
      rw [hon.branch (h.item_fit hd c hc).known]
      exact hitems c hc
    · rw [isBranch, marks, node_add_self] at hb
      obtain ⟨items, hd, hitems⟩ := hbranch hb
      refine ⟨items, by rw [hself, hd], fun c hc => ?_⟩
      rw [hon.branch (hparts c (by rwa [hd])).known]
      exact hitems c hc
  · exact hon.spread (hfit hc).known ((hfit hc).settled hw)

theorem new (h : s.Sound w) {d : Data} (hparts : ∀ c ∈ d.children, s.Fit w c) :
    (s.new d).2.Sound w :=
  h.add hparts fun hb => absurd hb Bool.false_ne_true

theorem remark (h : s.Sound w) (hdata : ∀ r, t.data r = s.data r) (hon : s.Onward t)
    (hsize : t.size = s.size) : t.Sound w := by
  have hpart {r c : Ref} (hc : t.Part c r) : s.Part c r := by rwa [Part, hdata r] at hc
  refine ⟨fun hc => hon.known (h.part_known (hpart hc)), fun r => ?_, fun r hb => ?_,
    fun hw r c hc => ?_⟩
  · exact (h.grounded r).of_data_eq (fun _ => True) trivial (fun _ _ => trivial) fun _ => hdata _
  · have hr : s.Known r := by
      rw [Known, ← hsize]
      exact known_of_isBranch hb
    rw [hon.branch hr] at hb
    obtain ⟨items, hd, hitems⟩ := h.flat r hb
    refine ⟨items, by rw [hdata r, hd], fun c hc => ?_⟩
    rw [hon.branch (h.item_fit hd c hc).known]
    exact hitems c hc
  · exact hon.spread (h.part_known (hpart hc)) (h.settled hw r c (hpart hc))

theorem setData (h : s.Sound w) {d : Data} (hr : s.isBranch r = false)
    (hparts : ∀ c ∈ d.children, s.Fit w c)
    (hgrounded : ∀ c ∈ d.children, (s.setData r d).Grounded c) : (s.setData r d).Sound w := by
  have hon := Onward.setData s r d
  have hother {q : Ref} (hq : q ≠ r) : (s.setData r d).data q = s.data q := by
    rw [data, Store.setData, node_modify_of_ne s _ hq, data]
  have hfit {q c : Ref} (hc : (s.setData r d).Part c q) : s.Fit w c := by
    by_cases hq : q = r
    · subst hq
      have hlt : q.index < s.size := by
        have hlt := hc.lt
        rwa [Store.setData, size_modify] at hlt
      rw [Part, data_setData_self s d hlt] at hc
      exact hparts c hc
    · rw [Part, hother hq] at hc
      exact h.part_fit hc
  refine ⟨fun hc => hon.known (hfit hc).known, fun q => (h.grounded q).setData hgrounded,
    fun q hb => ?_, fun hw q c hc => hon.spread (hfit hc).known ((hfit hc).settled hw)⟩
  rw [isBranch, marks_setData, ← isBranch] at hb
  have hq : q ≠ r := fun heq => by
    rw [heq, hr] at hb
    exact Bool.false_ne_true hb
  obtain ⟨items, hd, hitems⟩ := h.flat q hb
  refine ⟨items, by rw [hother hq, hd], fun c hc => ?_⟩
  rw [isBranch, marks_setData, ← isBranch]
  exact hitems c hc

end Sound

-- ---------------------------------------------------------------------------
-- Marks
-- ---------------------------------------------------------------------------

theorem isBranch_mark {f : Marks → Marks} (hf : ∀ m, (f m).branch = m.branch) (q r : Ref) :
    (s.mark r f).isBranch q = s.isBranch q := by
  by_cases hq : q = r
  · subst hq
    by_cases hlt : q.index < s.size
    · rw [isBranch, marks, mark, node_modify_self s _ hlt, hf, isBranch, marks]
    · have hlt' : ¬ (s.mark q f).Known q := by rwa [Known, mark, size_modify]
      rw [isBranch, marks_of_not_known hlt', isBranch, marks_of_not_known hlt]
  · rw [isBranch, marks, mark, node_modify_of_ne s _ hq, isBranch, marks]

theorem isSpread_mark {f : Marks → Marks} (hf : ∀ m, m.spread = false → (f m).spread = false)
    {q : Ref} (hq : s.isSpread q = false) (r : Ref) : (s.mark r f).isSpread q = false := by
  by_cases heq : q = r
  · subst heq
    by_cases hlt : q.index < s.size
    · rw [isSpread, marks, mark, node_modify_self s _ hlt]
      exact hf _ hq
    · have hlt' : ¬ (s.mark q f).Known q := by rwa [Known, mark, size_modify]
      rw [isSpread, marks_of_not_known hlt']
      rfl
  · rw [isSpread, marks, mark, node_modify_of_ne s _ heq]
    exact hq

theorem onward_mark {f : Marks → Marks} (hb : ∀ m, (f m).branch = m.branch)
    (hs : ∀ m, m.spread = false → (f m).spread = false) (s : Store) (r : Ref) :
    s.Onward (s.mark r f) where
  size_le := Nat.le_of_eq (s.size_modify r _).symm
  branch _ := isBranch_mark hb _ r
  spread _ hq := isSpread_mark hs hq r

theorem onward_clearSpread (s : Store) (r : Ref) : s.Onward (s.clearSpread r) :=
  onward_mark (f := fun m => { m with spread := false }) (fun _ => rfl) (fun _ _ => rfl) s r

theorem onward_markIgnored (s : Store) (r : Ref) : s.Onward (s.markIgnored r) :=
  onward_mark (f := fun m => { m with ignored := true }) (fun _ => rfl) (fun _ h => h) s r

theorem Sound.clearSpread (h : s.Sound w) (r : Ref) : (s.clearSpread r).Sound w :=
  h.remark (fun q => data_mark s q r _) (s.onward_clearSpread r) (s.size_modify r _)

theorem Sound.markIgnored (h : s.Sound w) (r : Ref) : (s.markIgnored r).Sound w :=
  h.remark (fun q => data_mark s q r _) (s.onward_markIgnored r) (s.size_modify r _)

theorem isSpread_clearSpread (s : Store) (r : Ref) : (s.clearSpread r).isSpread r = false := by
  by_cases hlt : r.index < s.size
  · rw [isSpread, marks, Store.clearSpread, mark, node_modify_self s _ hlt]
  · have hlt' : ¬ (s.clearSpread r).Known r := by
      rwa [Known, Store.clearSpread, mark, size_modify]
    rw [isSpread, marks_of_not_known hlt']
    rfl

end Store

end DocSelect
