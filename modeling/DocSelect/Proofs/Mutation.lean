import DocSelect.Proofs.Copying
import DocSelect.Proofs.Forest

/-!
# Changing nodes

What a program can do to a node that it has a name of, and what stays: every other node that was
there. A node that is set to a value gets a copy of it, whatever the two are to each other. The
nodes below it are new then, so what it holds is changed only by changing the node itself or one of
these.
-/
namespace DocSelect

inductive Mutation where
  | set (value : Ref)
  | setKey (key : String) (value : Ref)
  | deleteKey (key : String)
  | setItem (index : Int64) (value : Ref)
  | append (value : Ref)
  | markBranch
  | markSpread
  | clearSpread
  | markIgnored
  | setNote (key : String) (value : Ref)

/-- The store after a change of a node, also where it fails. -/
def Mutation.run (r : Ref) (s : Store) : Mutation → Store
  | set value => s.set r value
  | setKey key value => (s.setKey r key value).toOption.getD s
  | deleteKey key => ((s.deleteKey r key).map Prod.snd).toOption.getD s
  | setItem index value => (s.setItem r index value).toOption.getD s
  | append value => (s.append r value).2
  | markBranch => s.markBranch r
  | markSpread => s.markSpread r
  | clearSpread => s.clearSpread r
  | markIgnored => s.markIgnored r
  | setNote key value => s.setNote r key value

namespace Store

-- ---------------------------------------------------------------------------
-- What stays
-- ---------------------------------------------------------------------------

structure Spares (spared : Ref → Prop) (s t : Store) : Prop where
  size_le : s.size ≤ t.size
  node {r : Ref} : r.index < s.size → spared r → t.node r = s.node r

namespace Spares

variable {spared spared' : Ref → Prop} {s t u : Store} {r target : Ref}

theorem refl (spared : Ref → Prop) (s : Store) : s.Spares spared s :=
  ⟨Nat.le_refl _, fun _ _ => rfl⟩

theorem trans (h : s.Spares spared t) (k : t.Spares spared u) : s.Spares spared u where
  size_le := Nat.le_trans h.size_le k.size_le
  node hr hspared := (k.node (Nat.lt_of_lt_of_le hr h.size_le) hspared).trans (h.node hr hspared)

theorem mono (h : s.Spares spared t) (hsub : ∀ r, spared' r → spared r) :
    s.Spares spared' t where
  size_le := h.size_le
  node hr hspared := h.node hr (hsub _ hspared)

theorem data (h : s.Spares spared t) (hr : r.index < s.size) (hspared : spared r) :
    t.data r = s.data r := by
  rw [Store.data, h.node hr hspared, Store.data]

theorem add (spared : Ref → Prop) (s : Store) (n : Node) : s.Spares spared (s.add n).2 where
  size_le := by
    rw [size_add]
    exact Nat.le_succ _
  node hr _ := s.node_add_of_lt n hr

theorem modify (s : Store) (r : Ref) (f : Node → Node) : s.Spares (· ≠ r) (s.modify r f) where
  size_le := Nat.le_of_eq (s.size_modify r f).symm
  node _ hne := s.node_modify_of_ne f hne

theorem set (s : Store) (target value : Ref) : s.Spares (· ≠ target) (s.set target value) := by
  obtain ⟨roots, hg, -⟩ := s.grown_copyData value
  have hcopied : s.Spares (· ≠ target) (s.copyData value).2 :=
    ⟨hg.size_le, fun hr _ => hg.node_old hr⟩
  exact hcopied.trans (modify _ target _)

theorem push {value : Ref} (h : s.push target value = .ok t) : s.Spares (· ≠ target) t := by
  rcases hi : s.items? target with e | items <;> simp only [Store.push, hi] at h <;> cases h
  exact modify s target _

theorem appendWithin (fuel : Nat) (target value : Ref) (s : Store) :
    s.Spares (· ≠ target) (appendWithin fuel target value s).2 := by
  induction fuel generalizing value s with
  | zero => exact refl _ s
  | succ fuel ih =>
    unfold Store.appendWithin
    split
    · split
      · exact refl _ s
      · rename_i items _
        refine List.foldlRecOn (motive := fun p : Except ValueError Unit × Store =>
          s.Spares (· ≠ target) p.2) items _ (refl _ s) fun p hp item _ => ?_
        rcases p with ⟨_ | _, t⟩
        · exact hp
        · exact hp.trans (ih item t)
    · split
      · rename_i hpush
        exact push hpush
      · exact refl _ s

end Spares

theorem spares_run (m : Mutation) (r : Ref) (s : Store) : s.Spares (· ≠ r) (m.run r s) := by
  cases m with
  | set value => exact .set s r value
  | setKey | deleteKey =>
    rcases he : s.entries? r with e | entries <;> simp only [Mutation.run, setKey, deleteKey, he]
    · exact .refl _ s
    · exact .modify s r _
  | setItem index value =>
    rcases hi : s.items? r with e | items <;> simp only [Mutation.run, setItem, hi]
    · exact .refl _ s
    · rcases hp : position? index items.length with e | i <;> simp only [hp, bind, Except.bind]
      · exact .refl _ s
      · exact .modify s r _
  | append value => exact .appendWithin _ r value s
  | markBranch | markSpread | clearSpread | markIgnored | setNote => exact .modify s r _

inductive Changes (allowed : Ref → Prop) (s : Store) : Store → Prop
  | add (n : Node) : Changes allowed s (s.add n).2
  | run (m : Mutation) {r : Ref} (h : allowed r) : Changes allowed s (m.run r s)

variable {allowed : Ref → Prop} {s t u : Store} {r c target value : Ref}

theorem Changes.spares (h : s.Changes allowed t) : s.Spares (¬ allowed ·) t := by
  cases h with
  | add n => exact .add _ s n
  | run m h =>
    refine (spares_run m _ s).mono fun q hq => ?_
    rintro rfl
    exact hq h

theorem spares_of_changes (h : Relation.ReflTransGen (Changes allowed) s t) :
    s.Spares (¬ allowed ·) t := by
  induction h with
  | refl => exact .refl _ s
  | tail _ hstep ih => exact ih.trans hstep.spares

-- ---------------------------------------------------------------------------
-- Setting a node to a value
-- ---------------------------------------------------------------------------

theorem size_set (s : Store) (target value : Ref) :
    (s.set target value).size = (s.copyData value).2.size := size_modify ..

theorem fresh_part_set (ht : target.index < s.size)
    (hr : r = target ∨ Fresh s (s.set target value) r) (hc : (s.set target value).Part c r) :
    Fresh s (s.set target value) c := by
  obtain ⟨roots, hg, hd⟩ := s.grown_copyData value
  rw [Fresh, size_set]
  rcases hr with rfl | hr
  · rw [Part, set, data_setData_self _ _ (Nat.lt_of_lt_of_le ht hg.size_le)] at hc
    obtain ⟨slot, hslot⟩ := Data.mem_children_iff.1 hc
    exact hg.root_fresh (hd.mem hslot)
  · rw [Fresh, size_set] at hr
    rw [Part, set, KeepsNew.setData ht _ _ r hr] at hc
    obtain ⟨slot, hslot⟩ := Data.mem_children_iff.1 hc
    exact (hg.part_fresh hr hslot).1

theorem fresh_below_set (ht : target.index < s.size)
    (hc : Relation.TransGen (s.set target value).Part c target) :
    Fresh s (s.set target value) c := by
  induction hc using Relation.TransGen.head_induction_on with
  | single hc => exact fresh_part_set ht (.inl rfl) hc
  | head hc _ ih => exact fresh_part_set ht (.inr ih) hc

theorem grounded_set (hs : ∀ r, s.Grounded r) (ht : target.index < s.size) (value r : Ref) :
    (s.set target value).Grounded r := by
  obtain ⟨roots, hg, -⟩ := s.grown_copyData value
  have hfresh {c : Ref} (hc : Fresh s (s.set target value) c) :
      (s.set target value).Grounded c := by
    rw [Fresh, size_set] at hc
    exact hg.grounded (.setData ht _ _) hc
  induction hs r with
  | intro r _ ih =>
    refine ⟨r, fun c hc => ?_⟩
    by_cases heq : r = target
    · exact hfresh (fresh_part_set ht (.inl heq) hc)
    · by_cases hr : r.index < s.size
      · rw [Part, (Spares.set s target value).data hr heq] at hc
        exact ih c hc
      · exact hfresh (fresh_part_set ht (.inr ⟨Nat.le_of_not_lt hr, hc.lt⟩) hc)

/-- A node that is set to a value holds what the value held before, and keeps its marks. No other
node that was there is changed, and the nodes below it are new, also where it is part of the value
or the value is part of it. Whatever is done to other nodes later, it holds the same. -/
theorem set_copies (hs : ∀ r, s.Grounded r) (ht : target.index < s.size) (value : Ref) :
    let t := s.set target value
    t.Holds target (s.content value) ∧ t.marks target = s.marks target ∧
      (∀ r, r.index < s.size → r ≠ target → t.node r = s.node r) ∧
      (∀ r, Relation.TransGen t.Part r target → Fresh s t r) ∧ (∀ r, t.Grounded r) ∧
      ∀ u, Relation.ReflTransGen (Changes fun r => r ≠ target ∧ ¬ Fresh s t r) t u →
        u.Holds target (s.content value) := by
  intro t
  have hspares : s.Spares (· ≠ target) t := .set s target value
  have hholds : t.Holds target (s.content value) := holds_set_self s ht value
  refine ⟨hholds, ?_, fun r hr hne => hspares.node hr hne, fun r hr => fresh_below_set ht hr,
    grounded_set hs ht value, fun u hu => ?_⟩
  · obtain ⟨roots, hg, -⟩ := s.grown_copyData value
    have hmarks : t.marks target = (s.copyData value).2.marks target := marks_setData ..
    rw [hmarks, marks, hg.node_old ht, marks]
  · refine hholds.of_data_eq (fun r => r = target ∨ Fresh s t r) (.inl rfl)
      (fun hr hc => .inr (fresh_part_set ht hr hc)) fun {r} hr => ?_
    have hknown : r.index < t.size := by
      rcases hr with rfl | hr
      · exact Nat.lt_of_lt_of_le ht hspares.size_le
      · exact hr.2
    refine (spares_of_changes hu).data hknown fun hallowed => ?_
    exact hr.elim hallowed.1 hallowed.2

/-- A slice is set to the slice around it. Writing into the number in it afterwards does not
show. -/
theorem set_copies_container :
    let s := (Session.start (.slice [.int 1, .slice [.int 2]]) []).2.store
    let t := s.set ⟨2⟩ ⟨3⟩
    s.Part ⟨2⟩ ⟨3⟩ ∧ s.Part ⟨1⟩ ⟨2⟩ ∧
      t.content ⟨2⟩ = .slice [.int 1, .slice [.int 2]] ∧
      ((Mutation.set ⟨0⟩).run ⟨1⟩ t).content ⟨2⟩ =
        .slice [.int 1, .slice [.int 2]] := by
  intro s t
  have hplain := Session.Plain.start (.slice [.int 1, .slice [.int 2]]) []
  have hgrounded (r : Ref) : s.Grounded r := by
    by_cases hr : r.index < s.size
    · exact hplain.forest.grounded hr
    · exact ⟨r, fun c hc => absurd hc.lt hr⟩
  have hcontent : s.content ⟨3⟩ = .slice [.int 1, .slice [.int 2]] := rfl
  have htarget : (⟨2⟩ : Ref).index < s.size := by decide
  obtain ⟨hholds, -, -, -, -, hlater⟩ := set_copies hgrounded htarget ⟨3⟩
  have hinner : (⟨1⟩ : Ref) ∈ [(⟨1⟩ : Ref)] := by simp
  have houter : (⟨2⟩ : Ref) ∈ [(⟨0⟩ : Ref), ⟨2⟩] := by simp
  refine ⟨houter, hinner, hholds.content_eq.trans hcontent, ?_⟩
  refine (hlater _ (.single (.run (.set ⟨0⟩) ⟨by decide, ?_⟩))).content_eq.trans hcontent
  exact fun hfresh => absurd hfresh.1 (by decide)

end Store

end DocSelect
