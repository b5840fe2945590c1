import DocSelect.Proofs.Copying
import DocSelect.Proofs.Marks
import DocSelect.Proofs.Ownership

/-!
# Forests

Nodes that hold each other as finite trees do: nothing is shared among them, and no path goes down
without end. In a new session all nodes are of this kind, and none of them has marks.
-/
namespace DocSelect

namespace Store

variable {s t : Store} {r c target : Ref}

structure Forest (s : Store) (roots : List Ref) (live : Ref → Prop) : Prop
    extends Rooted s roots live where
  grounded {r : Ref} : live r → s.Grounded r

namespace Forest

variable {roots : List Ref} {live : Ref → Prop}

theorem live_part (h : s.Forest roots live) (hr : live r) (hc : s.Part c r) : live c := by
  obtain ⟨slot, hslot⟩ := Data.mem_children_iff.1 hc
  exact h.part hr hslot

theorem congr_data (h : s.Forest roots live) (hsize : s.size ≤ t.size)
    (hdata : ∀ r : Ref, r.index < s.size → t.data r = s.data r) : t.Forest roots live where
  toRooted := h.toRooted.congr_data hsize hdata
  grounded hr := (h.grounded hr).of_data_eq live hr h.live_part fun ha => hdata _ (h.lt ha)

theorem content_eq (h : s.Forest roots live) (hr : live r)
    (hdata : ∀ r : Ref, r.index < s.size → t.data r = s.data r) : t.content r = s.content r :=
  (Holds.of_data_eq live ⟨h.grounded hr, rfl⟩ hr h.live_part fun ha =>
    hdata _ (h.lt ha)).content_eq

theorem grown (h : s.Forest roots live) {others : List Ref} (hg : Grown s t others) :
    t.Forest (roots ++ others) (fun r => live r ∨ Fresh s t r) where
  toRooted := h.toRooted.grown hg
  grounded {r} hr := by
    rcases hr with hr | hr
    · exact (h.grounded hr).of_data_eq live hr h.live_part fun {a} ha => by
        rw [data, hg.node_old (h.lt ha), data]
    · exact hg.grounded (.refl s t) hr

theorem set (h : s.Forest roots live) (htarget : live target) (value : Ref) :
    ∃ live', (∀ r, live r → live' r) ∧ (s.set target value).Forest roots live' := by
  obtain ⟨others, hg, hd⟩ := grown_copyData s value
  have hgrown := h.grown hg
  refine ⟨_, fun r hr => .inl hr, hgrown.toRooted.setData hd target, fun hr => ?_⟩
  refine (hgrown.grounded hr).setData fun c hc => ?_
  obtain ⟨slot, hslot⟩ := Data.mem_children_iff.1 hc
  exact hg.grounded (.setData (h.lt htarget) _ _) (hg.root_fresh (hd.mem hslot))

end Forest

end Store

-- ---------------------------------------------------------------------------
-- New sessions
-- ---------------------------------------------------------------------------

namespace Store

def Unmarked (s : Store) : Prop := ∀ r, s.marks r = Marks.none

theorem Unmarked.isBranch {s : Store} (h : s.Unmarked) (r : Ref) : s.isBranch r = false := by
  rw [Store.isBranch, h r]
  rfl

theorem Unmarked.isSpread {s : Store} (h : s.Unmarked) (r : Ref) : s.isSpread r = false := by
  rw [Store.isSpread, h r]
  rfl

theorem Unmarked.isIgnored {s : Store} (h : s.Unmarked) (r : Ref) : s.isIgnored r = false := by
  rw [Store.isIgnored, h r]
  rfl

theorem Unmarked.new {s : Store} (h : s.Unmarked) (d : Data) : (s.new d).2.Unmarked :=
  (lenient_bears (P := (· = Marks.none)) rfl).new s d h

theorem Unmarked.build (c : Content) {s : Store} (h : s.Unmarked) : (s.build c).2.Unmarked :=
  (lenient_bears (P := (· = Marks.none)) rfl).build c s h

end Store

structure Session.Plain (σ : Session) (outside : List Ref) : Prop where
  forest : σ.store.Forest (outside ++ σ.bindings.values) (·.index < σ.store.size)
  unmarked : σ.store.Unmarked

namespace Session.Plain

variable {σ : Session} {outside : List Ref}

theorem forest_build {s : Store} {roots : List Ref} (h : s.Forest roots (·.index < s.size))
    (c : Content) :
    (s.build c).2.Forest (roots ++ [(s.build c).1]) (·.index < (s.build c).2.size) := by
  have hg := Store.grown_build c s
  have hlive (r : Ref) : (r.index < s.size ∨ Store.Fresh s (s.build c).2 r) ↔
      r.index < (s.build c).2.size := by
    have hle := hg.size_le
    unfold Store.Fresh
    omega
  simpa only [hlive] using h.grown hg

theorem bind (h : σ.Plain outside) (name : String) (c : Content) :
    (σ.bind name c).Plain outside := by
  have hf := forest_build h.forest c
  refine ⟨⟨hf.toRooted.subperm ?_, hf.grounded⟩, h.unmarked.build c⟩
  rw [List.append_assoc]
  exact (List.Subperm.refl outside).append (σ.bindings.values_insert_subperm name _)

theorem start (document : Content) (vars : List (String × Content)) :
    (Session.start document vars).2.Plain [(Session.start document vars).1] := by
  have hempty : Store.empty.Forest [] (·.index < Store.empty.size) := by
    refine ⟨?_, fun hr => absurd hr (Nat.not_lt_zero _)⟩
    constructor <;> simp [Store.empty, Store.size]
  have hunmarked : Store.empty.Unmarked := fun r => by
    simp [Store.marks, Store.node, Store.empty]
    rfl
  have hdocument : Session.Plain ⟨_, Dict.empty⟩ [(Store.empty.build document).1] :=
    ⟨forest_build hempty document, hunmarked.build document⟩
  exact foldl_bind (P := fun σ => σ.Plain _) (fun h name c => h.bind name c) vars hdocument

end Session.Plain

end DocSelect
