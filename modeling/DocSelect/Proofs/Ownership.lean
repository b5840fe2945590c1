import DocSelect.Eval.Calls
import DocSelect.Proofs.Effects.Evaluation
import DocSelect.Proofs.Planting
import Mathlib.Data.List.Induction
import Mathlib.Data.List.Perm.Subperm

/-!
# Nothing is shared below the document and the variables

Evaluation hands out the nodes of the document freely, and new containers hold them. What keeps the
document and the variables apart all the same is that an assignment never puts a node anywhere: it
gives a node new data, and the parts of those are new copies.

The invariant speaks of a set of live nodes. It holds the roots and the parts of each of its nodes,
each part stands in one slot of one live node, and no root is a part. Old parts of an overwritten
node stay live, so that the set only grows; what a run reaches from the roots is among them.
-/
namespace DocSelect

-- ---------------------------------------------------------------------------
-- What is reached from where
-- ---------------------------------------------------------------------------

inductive Root where
  | document
  | binding (name : String)
  deriving DecidableEq

structure Place where
  root : Root
  path : List Slot
  deriving DecidableEq

namespace Session

def root? (σ : Session) (document : Ref) : Root → Option Ref
  | .document => some document
  | .binding name => σ.bindings.find? name

def node? (σ : Session) (document : Ref) (p : Place) : Option Ref :=
  (σ.root? document p.root).bind (σ.store.follow? · p.path)

def Unshared (σ : Session) (document : Ref) : Prop :=
  ∀ p q r, σ.node? document p = some r → σ.node? document q = some r → p = q

end Session

theorem Session.Unshared.no_cycle {σ : Session} {document : Ref} (h : σ.Unshared document)
    {p : Place} {r : Ref} {path : List Slot} (hr : σ.node? document p = some r)
    (hp : σ.node? document ⟨p.root, p.path ++ path⟩ = some r) : path = [] := by
  have heq : p.path ++ path = p.path := congrArg Place.path (h _ _ r hp hr)
  exact List.append_right_eq_self.1 heq

-- ---------------------------------------------------------------------------
-- The invariant
-- ---------------------------------------------------------------------------

namespace Store

structure Rooted (s : Store) (roots : List Ref) (live : Ref → Prop) : Prop where
  lt {r : Ref} : live r → r.index < s.size
  part {a c : Ref} {slot : Slot} : live a → s.part? a slot = some c → live c
  unique {a b c : Ref} {slot slot' : Slot} : live a → live b →
    s.part? a slot = some c → s.part? b slot' = some c → a = b ∧ slot = slot'
  root {r : Ref} : r ∈ roots → live r
  nodup : roots.Nodup
  not_part {a r : Ref} {slot : Slot} : live a → r ∈ roots → s.part? a slot ≠ some r

def Owned (s : Store) (roots : List Ref) : Prop := ∃ live, s.Rooted roots live

namespace Rooted

variable {s t : Store} {roots others : List Ref} {live : Ref → Prop}

theorem follow (h : s.Rooted roots live) {r c : Ref} {path : List Slot} (hr : live r)
    (hc : s.follow? r path = some c) : live c := by
  induction path generalizing r with
  | nil => cases hc; exact hr
  | cons slot rest ih =>
    obtain ⟨a, ha, hc⟩ := Option.bind_eq_some_iff.1 hc
    exact ih (h.part hr ha) hc

theorem follow_root (h : s.Rooted roots live) {r c : Ref} {path : List Slot} (hr : live r)
    (hc : c ∈ roots) (hp : s.follow? r path = some c) : path = [] ∧ r = c := by
  rcases path.eq_nil_or_concat' with rfl | ⟨path, slot, rfl⟩
  · exact ⟨rfl, Option.some.inj hp⟩
  · rw [follow?_concat] at hp
    obtain ⟨a, ha, hp⟩ := Option.bind_eq_some_iff.1 hp
    exact absurd hp (h.not_part (h.follow hr ha) hc)

/-- Two walks from roots that end at one node are the same walk: so are their last steps, and what
is left of them. -/
theorem follow_inj (h : s.Rooted roots live) {r r' c : Ref} {path path' : List Slot}
    (hr : r ∈ roots) (hr' : r' ∈ roots) (hp : s.follow? r path = some c)
    (hp' : s.follow? r' path' = some c) : r = r' ∧ path = path' := by
  induction path using List.reverseRecOn generalizing path' c with
  | nil =>
    obtain rfl := Option.some.inj hp
    obtain ⟨rfl, rfl⟩ := h.follow_root (h.root hr') hr hp'
    exact ⟨rfl, rfl⟩
  | append_singleton path slot ih =>
    rcases path'.eq_nil_or_concat' with rfl | ⟨path', slot', rfl⟩
    · obtain rfl := Option.some.inj hp'
      obtain ⟨hnil, -⟩ := h.follow_root (h.root hr) hr' hp
      exact absurd hnil (by simp)
    · rw [follow?_concat] at hp hp'
      obtain ⟨a, ha, hp⟩ := Option.bind_eq_some_iff.1 hp
      obtain ⟨a', ha', hp'⟩ := Option.bind_eq_some_iff.1 hp'
      obtain ⟨rfl, rfl⟩ := h.unique (h.follow (h.root hr) ha) (h.follow (h.root hr') ha') hp hp'
      obtain ⟨rfl, rfl⟩ := ih ha ha'
      exact ⟨rfl, rfl⟩

theorem subperm (h : s.Rooted roots live) (hsub : others.Subperm roots) : s.Rooted others live where
  lt := h.lt
  part := h.part
  unique := h.unique
  root hr := h.root (hsub.subset hr)
  nodup := by
    obtain ⟨kept, hperm, hkept⟩ := hsub
    exact hperm.nodup_iff.1 (hkept.nodup h.nodup)
  not_part ha hr := h.not_part ha (hsub.subset hr)

theorem congr_data (h : s.Rooted roots live) (hsize : s.size ≤ t.size)
    (hdata : ∀ r : Ref, r.index < s.size → t.data r = s.data r) : t.Rooted roots live := by
  have hpart {a : Ref} (ha : live a) (slot : Slot) : t.part? a slot = s.part? a slot := by
    simp only [part?, hdata a (h.lt ha)]
  refine ⟨fun hr => Nat.lt_of_lt_of_le (h.lt hr) hsize, fun ha hc => ?_, fun ha hb hac hbc => ?_,
    h.root, h.nodup, fun ha hr => ?_⟩
  · exact h.part ha (hpart ha _ ▸ hc)
  · exact h.unique ha hb (hpart ha _ ▸ hac) (hpart hb _ ▸ hbc)
  · exact hpart ha _ ▸ h.not_part ha hr

theorem grown (h : s.Rooted roots live) (hg : Grown s t others) :
    t.Rooted (roots ++ others) (fun r => live r ∨ Fresh s t r) := by
  have hpart {a : Ref} (ha : live a) (slot : Slot) : t.part? a slot = s.part? a slot :=
    hg.part_old (h.lt ha) slot
  have hclash {a : Ref} (ha : live a) (hf : Fresh s t a) : False :=
    absurd (h.lt ha) (Nat.not_lt.2 hf.1)
  refine ⟨?_, ?_, ?_, ?_, ?_, ?_⟩
  · rintro r (hr | hr)
    · exact Nat.lt_of_lt_of_le (h.lt hr) hg.size_le
    · exact hr.2
  · rintro a c slot (ha | ha) hc
    · exact .inl (h.part ha (hpart ha _ ▸ hc))
    · exact .inr (hg.part_fresh ha hc).1
  · rintro a b c slot slot' (ha | ha) (hb | hb) hac hbc
    · exact h.unique ha hb (hpart ha _ ▸ hac) (hpart hb _ ▸ hbc)
    · exact (hclash (h.part ha (hpart ha _ ▸ hac)) (hg.part_fresh hb hbc).1).elim
    · exact (hclash (h.part hb (hpart hb _ ▸ hbc)) (hg.part_fresh ha hac).1).elim
    · exact hg.part_unique ha hb hac hbc
  · intro r hr
    exact (List.mem_append.1 hr).imp h.root hg.root_fresh
  · refine List.nodup_append.2 ⟨h.nodup, hg.roots_nodup, ?_⟩
    rintro a ha b hb rfl
    exact hclash (h.root ha) (hg.root_fresh hb)
  · rintro a r slot (ha | ha) hr hc <;> rcases List.mem_append.1 hr with hr | hr
    · exact h.not_part ha hr (hpart ha _ ▸ hc)
    · exact hclash (h.part ha (hpart ha _ ▸ hc)) (hg.root_fresh hr)
    · exact hclash (h.root hr) (hg.part_fresh ha hc).1
    · exact (hg.part_fresh ha hc).2 hr

theorem setData (h : s.Rooted (roots ++ others) live) {d : Data} (hd : d.PartsOnce others)
    (target : Ref) : (s.setData target d).Rooted roots live := by
  have hother {c : Ref} (hc : c ∈ others) : c ∈ roots ++ others := List.mem_append_right _ hc
  have hpart {a c : Ref} {slot : Slot} (ha : live a)
      (hc : (s.setData target d).part? a slot = some c) :
      (a = target ∧ d.part? slot = some c) ∨ (a ≠ target ∧ s.part? a slot = some c) := by
    by_cases heq : a = target
    · subst heq
      rw [part?, data_setData_self s d (h.lt ha)] at hc
      exact .inl ⟨rfl, hc⟩
    · refine .inr ⟨heq, ?_⟩
      rwa [part?, data, Store.setData, node_modify_of_ne s _ heq] at hc
  refine ⟨fun hr => ?_, ?_, ?_, ?_, ?_, ?_⟩
  · rw [Store.setData, size_modify]
    exact h.lt hr
  · intro a c slot ha hc
    rcases hpart ha hc with ⟨-, hc⟩ | ⟨-, hc⟩
    · exact h.root (hother (hd.mem hc))
    · exact h.part ha hc
  · intro a b c slot slot' ha hb hac hbc
    rcases hpart ha hac with ⟨ht, hac'⟩ | ⟨-, hac'⟩ <;>
      rcases hpart hb hbc with ⟨ht', hbc'⟩ | ⟨-, hbc'⟩
    · exact ⟨ht.trans ht'.symm, hd.unique hac' hbc'⟩
    · exact absurd hbc' (h.not_part hb (hother (hd.mem hac')))
    · exact absurd hac' (h.not_part ha (hother (hd.mem hbc')))
    · exact h.unique ha hb hac' hbc'
  · intro r hr
    exact h.root (List.mem_append_left _ hr)
  · exact (List.nodup_append.1 h.nodup).1
  · intro a r slot ha hr hc
    rcases hpart ha hc with ⟨-, hc⟩ | ⟨-, hc⟩
    · exact (List.nodup_append.1 h.nodup).2.2 r hr r (hd.mem hc) rfl
    · exact h.not_part ha (List.mem_append_left _ hr) hc

end Rooted

namespace Owned

variable {s t : Store} {roots others : List Ref}

theorem empty : Store.empty.Owned [] :=
  ⟨fun _ => False, by constructor <;> simp⟩

theorem subperm (h : s.Owned roots) (hsub : others.Subperm roots) : s.Owned others :=
  h.imp fun _ h => h.subperm hsub

theorem grown (h : s.Owned roots) (hg : Grown s t others) : t.Owned (roots ++ others) :=
  let ⟨_, h⟩ := h
  ⟨_, h.grown hg⟩

theorem touch (h : s.Owned roots) (ht : s.Touch t) : t.Owned roots := by
  obtain ⟨live, h⟩ := h
  refine ⟨live, ?_⟩
  cases ht with
  | add n =>
    refine h.congr_data (by simp) fun r hr => ?_
    rw [data, s.node_add_of_lt n hr, data]
  | ignore r => exact h.congr_data (by simp [markIgnored, mark]) fun q _ => data_mark s q r _
  | clearSpread r => exact h.congr_data (by simp [clearSpread, mark]) fun q _ => data_mark s q r _

theorem set (h : s.Owned roots) (target value : Ref) : (s.set target value).Owned roots := by
  obtain ⟨others, hg, hd⟩ := grown_copyData s value
  obtain ⟨live, h⟩ := h.grown hg
  exact ⟨live, h.setData hd target⟩

theorem new (h : s.Owned roots) (a : Scalar) :
    (s.new (.scalar a)).2.Owned (roots ++ [(s.new (.scalar a)).1]) :=
  h.grown ((Grown.refl s).cap (.scalar a []))

end Owned

end Store

-- ---------------------------------------------------------------------------
-- Evaluations and calls
-- ---------------------------------------------------------------------------

theorem Assoc.insert_subperm (name : String) (r : Ref) (entries : List (String × Ref)) :
    ((Assoc.insert name r entries).map Prod.snd).Subperm (r :: entries.map Prod.snd) := by
  induction entries with
  | nil => exact .refl _
  | cons e rest ih =>
    unfold Assoc.insert
    split
    · exact (List.Subperm.refl _).cons_right e.2 |>.trans (List.Perm.swap ..).subperm
    · exact ((List.subperm_cons e.2).2 ih).trans (List.Perm.swap ..).subperm

theorem Dict.values_insert_subperm (d : Dict Ref) (name : String) (r : Ref) :
    (d.insert name r).values.Subperm (d.values ++ [r]) :=
  (Assoc.insert_subperm name r d.entries).trans (List.perm_append_singleton r _).symm.subperm

theorem Session.foldl_bind {P : Session → Prop}
    (hP : ∀ {σ : Session}, P σ → ∀ name c, P (σ.bind name c))
    (vars : List (String × Content)) {σ : Session} (h : P σ) :
    P (vars.foldl (fun σ v => σ.bind v.1 v.2) σ) := by
  induction vars generalizing σ with
  | nil => exact h
  | cons v rest ih => exact ih (hP h v.1 v.2)

def Session.Owned (σ : Session) (outside : List Ref) : Prop :=
  σ.store.Owned (outside ++ σ.bindings.values)

namespace Session.Owned

variable {σ : Session} {outside : List Ref} {settings : Settings}

theorem insert {s : Store} {r : Ref} (h : s.Owned (outside ++ σ.bindings.values ++ [r]))
    (name : String) : Session.Owned ⟨s, σ.bindings.insert name r⟩ outside := by
  rw [List.append_assoc] at h
  exact h.subperm ((List.Subperm.refl outside).append (σ.bindings.values_insert_subperm name r))

theorem tolerant (outside : List Ref) :
    TolerantOfWriting fun σ τ => σ.Owned outside → τ.Owned outside where
  refl _ h := h
  trans h k hσ := k (h hσ)
  touch _ _ ht h := h.touch ht
  write _ target value h := h.set target value
  bind _ name _ h := insert (h.new .null) name

theorem bind (h : σ.Owned outside) (name : String) (c : Content) :
    (σ.bind name c).Owned outside :=
  insert (h.grown (Store.grown_build c σ.store)) name

theorem evaluate (hg : settings.Gentle) (h : σ.Owned outside) (e : Expr) (subject : Ref) :
    (DocSelect.evaluate settings e subject σ).2.Owned outside :=
  evaluate_leads (tolerant outside) hg e subject σ h

theorem execute (hg : settings.Gentle) (h : σ.Owned outside) (selector : String) (document : Ref) :
    (DocSelect.execute settings selector document σ).2.Owned outside := by
  unfold DocSelect.execute
  split
  · exact h
  · split
    · exact h
    · exact h.evaluate hg _ document

theorem query (hg : settings.Gentle) {s : Store} {roots : List Ref} (h : s.Owned roots)
    (selector : String) (document : Ref) :
    (DocSelect.query settings selector document s).2.Owned roots := by
  have hin : Session.Owned ⟨s, Dict.empty⟩ roots := by
    simpa [Session.Owned, Dict.empty, Dict.values] using h
  have hout := Store.Owned.subperm (hin.execute hg selector document)
    (List.sublist_append_left roots _).subperm
  unfold DocSelect.query
  dsimp only
  split
  · exact hout
  · split <;> exact hout

theorem modify (hg : settings.Gentle) {s : Store} {roots : List Ref} (h : s.Owned roots)
    (document : Ref) (selector : String) (value : Ref) :
    (DocSelect.modify settings document selector value s).2.Owned roots := by
  have hset (selected : List Ref) {t : Store} (ht : t.Owned roots) :
      (selected.foldl (fun t r => t.set r value) t).Owned roots := by
    induction selected generalizing t with
    | nil => exact ht
    | cons r rest ih => exact ih (ht.set r value)
  have hquery := query hg h selector document
  unfold DocSelect.modify
  dsimp only
  split
  · exact hquery
  · exact hset _ hquery

theorem call (hg : settings.Gentle) (h : σ.Owned outside) (c : Call) :
    (c.run settings σ).Owned outside := by
  cases c with
  | execute selector document => exact h.execute hg selector document
  | evaluate e subject => exact h.evaluate hg e subject
  | query selector document => exact query hg h selector document
  | modify document selector value =>
    have hbuilt := Store.Owned.grown h (Store.grown_build value σ.store)
    exact modify hg (hbuilt.subperm (List.sublist_append_left _ _).subperm) document selector _
  | bind name value => exact h.bind name value

theorem after (hg : settings.Gentle) (h : σ.Owned outside) (calls : List Call) :
    (σ.after settings calls).Owned outside := by
  induction calls generalizing σ with
  | nil => exact h
  | cons c rest ih => exact ih (h.call hg c)

theorem start (document : Content) (vars : List (String × Content)) :
    (Session.start document vars).2.Owned [(Session.start document vars).1] := by
  have hdocument : Session.Owned ⟨(Store.empty.build document).2, Dict.empty⟩
      [(Store.empty.build document).1] :=
    Store.Owned.empty.grown (Store.grown_build document Store.empty)
  exact foldl_bind (P := fun σ => σ.Owned _) (fun h name c => h.bind name c) vars hdocument

theorem unshared {document : Ref} (h : σ.Owned [document]) : σ.Unshared document := by
  obtain ⟨live, h⟩ := h
  have hroot {ρ : Root} {r : Ref} (hr : σ.root? document ρ = some r) :
      r ∈ [document] ++ σ.bindings.values := by
    cases ρ with
    | document => cases hr; exact List.mem_cons_self
    | binding name =>
      exact List.mem_cons_of_mem _ (List.mem_map.2 ⟨_, σ.bindings.mem_of_find? hr, rfl⟩)
  intro p q r hp hq
  obtain ⟨a, ha, hp⟩ := Option.bind_eq_some_iff.1 hp
  obtain ⟨b, hb, hq⟩ := Option.bind_eq_some_iff.1 hq
  obtain ⟨rfl, hpath⟩ := h.follow_inj (hroot ha) (hroot hb) hp hq
  obtain ⟨ρ, path⟩ := p
  obtain ⟨ρ', path'⟩ := q
  rw [Place.mk.injEq]
  refine ⟨?_, hpath⟩
  -- two roots with one node: no variable has the document as its value, or that of another one
  have hnodup := List.nodup_cons.1 h.nodup
  cases ρ with
  | document =>
    cases ρ' with
    | document => rfl
    | binding name =>
      cases ha
      exact absurd (List.mem_map.2 ⟨_, σ.bindings.mem_of_find? hb, rfl⟩) hnodup.1
  | binding name =>
    cases ρ' with
    | document =>
      cases hb
      exact absurd (List.mem_map.2 ⟨_, σ.bindings.mem_of_find? ha, rfl⟩) hnodup.1
    | binding name' =>
      have heq := List.inj_on_of_nodup_map hnodup.2 (σ.bindings.mem_of_find? ha)
        (σ.bindings.mem_of_find? hb) rfl
      exact congrArg (Root.binding ·.1) heq

end Session.Owned

/-- After every run of calls, whether they succeed or fail, each node below the document and the
variables is reached at one place. -/
theorem unshared_after_calls (files : FileSystem) (environment : Environment) (limit : Nat)
    (document : Content) (vars : List (String × Content)) (calls : List Call) :
    let (root, σ) := Session.start document vars
    (σ.after ⟨Registry.builtins files, environment, limit⟩ calls).Unshared root :=
  ((Session.Owned.start document vars).after
    (Settings.gentle_builtins files environment limit) calls).unshared

end DocSelect
