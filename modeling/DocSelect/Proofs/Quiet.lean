import DocSelect.Proofs.Assignment.Lookup
import DocSelect.Proofs.Marks
import DocSelect.Proofs.Soundness.Rules

/-!
# Expressions that mark nothing

Evaluation changes marks of nodes that were there in two ways: it takes spread marks away, and the
function for it marks its subject as ignored. Without that function, nodes that are no spreads keep
their marks; and where no node is a spread, an evaluation without assignments as well only adds
nodes.
-/
namespace DocSelect

namespace Store

/-- A store as it may be found after expressions that mark nothing: only spreads may have other
marks. -/
structure Quiet (s t : Store) : Prop where
  size_le : s.size ≤ t.size
  marks {r : Ref} : s.Known r → s.isSpread r = false → t.marks r = s.marks r

namespace Quiet

variable {s t u : Store} {r : Ref}

theorem of_marks (hsize : s.size ≤ t.size) (hm : ∀ r, s.Known r → t.marks r = s.marks r) :
    s.Quiet t :=
  ⟨hsize, fun hr _ => hm _ hr⟩

theorem refl (s : Store) : s.Quiet s := of_marks (Nat.le_refl _) fun _ _ => rfl

theorem known (h : s.Quiet t) (hr : s.Known r) : t.Known r := Nat.lt_of_lt_of_le hr h.size_le

theorem isSpread (h : s.Quiet t) (hr : s.Known r) (hs : s.isSpread r = false) :
    t.isSpread r = false := by
  rwa [Store.isSpread, h.marks hr hs]

theorem trans (h : s.Quiet t) (k : t.Quiet u) : s.Quiet u where
  size_le := Nat.le_trans h.size_le k.size_le
  marks hr hs := (k.marks (h.known hr) (h.isSpread hr hs)).trans (h.marks hr hs)

theorem of_grown {roots : List Ref} (h : Grown s t roots) : s.Quiet t :=
  of_marks h.size_le fun r hr => by rw [Store.marks, h.node_old hr, Store.marks]

theorem add (s : Store) (n : Node) : s.Quiet (s.add n).2 :=
  of_marks (by rw [size_add]; exact Nat.le_succ _) fun _ hr => marks_add_of_known n hr

theorem set (s : Store) (target value : Ref) : s.Quiet (s.set target value) := by
  obtain ⟨roots, hg, -⟩ := s.grown_copyData value
  refine (of_grown hg).trans (of_marks ?_ fun r _ => marks_setData _ r target _)
  exact Nat.le_of_eq (size_modify ..).symm

theorem clearSpread (s : Store) (r : Ref) : s.Quiet (s.clearSpread r) where
  size_le := Nat.le_of_eq (size_modify ..).symm
  marks {q} hq hs := by
    by_cases heq : q = r
    · subst heq
      have hself : ({ s.marks q with spread := false } : Marks) = s.marks q := by
        have hs : (s.marks q).spread = false := hs
        generalize s.marks q = m at hs ⊢
        cases m
        cases hs
        rfl
      rw [Store.marks, Store.clearSpread, Store.mark, node_modify_self s _ hq]
      exact hself
    · rw [Store.marks, Store.clearSpread, Store.mark, node_modify_of_ne s _ heq, Store.marks]

theorem lenient : Store.Lenient Quiet where
  refl := refl
  trans := trans
  new s _ := add s _
  copy s r := of_grown (grown_plant (s.tree r) s)

end Quiet

end Store

variable {files : FileSystem} {environment : Environment} {limit : Nat} {e : Expr} {σ τ : Session}

theorem permits_quiet : Permits ⟨Registry.builtins files, environment, limit⟩
    (fun σ τ => σ.store.Quiet τ.store) fun part => !part.isCallOf "ignore" where
  refl _ := .refl _
  trans := .trans
  new _ _ := .add _ _
  branch _ _ := .add _ _
  clearSpread _ r := .clearSpread _ r
  spread _ _ _ := .add _ _
  assign _ := ⟨fun _ target value => .set _ target value, fun _ _ _ => .add _ _⟩
  call ht hfind subject arguments σ := by
    rcases Registry.builtins_lead Store.Quiet.lenient hfind with hf | ⟨rfl, rfl⟩
    · exact hf subject arguments σ.store
    · exact absurd ht Bool.false_ne_true

theorem evaluate_quiet (files : FileSystem) (environment : Environment) (limit : Nat)
    (he : e.ignoreFree = true) (subject : Ref) (σ : Session) :
    σ.store.Quiet (evaluate ⟨Registry.builtins files, environment, limit⟩ e
      subject σ).2.store :=
  evaluate_leads_of_permits permits_quiet he subject σ

/-- Where no node is a spread, an expression that neither assigns nor marks only adds nodes. -/
theorem evaluate_extends (files : FileSystem) (environment : Environment) (limit : Nat)
    (he : e.assignFree = true) (hi : e.ignoreFree = true) (subject : Ref)
    (hσ : ∀ r, σ.store.Known r → σ.store.isSpread r = false) :
    σ.Extends (evaluate ⟨Registry.builtins files, environment, limit⟩ e subject σ).2 := by
  have hlater := evaluate_later files environment limit he subject σ
  have hquiet := evaluate_quiet files environment limit hi subject σ
  refine ⟨hlater.bindings, hlater.size_le, fun r hr => ?_⟩
  have hdata := (hlater.node r hr).data
  have hmarks : (Store.node _ r).marks = _ := hquiet.marks hr (hσ r hr)
  generalize Store.node _ r = n at hdata hmarks ⊢
  cases n
  dsimp only at hdata hmarks
  rw [hdata, hmarks, Store.marks]

-- ---------------------------------------------------------------------------
-- What nodes hold
-- ---------------------------------------------------------------------------

theorem Store.Sound.content_eq {s t : Store} {r : Ref} {w : Concern} (hs : s.Sound w)
    (kept : Ref → Prop) (hr : kept r) (hpart : ∀ {a c : Ref}, kept a → s.Part c a → kept c)
    (hdata : ∀ {a : Ref}, kept a → t.data a = s.data a) : t.content r = s.content r :=
  (Holds.of_data_eq kept ⟨hs.grounded r, rfl⟩ hr hpart hdata).content_eq

theorem Session.Later.content_eq {r : Ref} {w : Concern} (h : σ.Later τ) (hσ : σ.Sound w)
    (hr : σ.store.Known r) : τ.store.content r = σ.store.content r :=
  hσ.store.content_eq σ.store.Known hr (fun _ hc => hσ.store.part_known hc) fun ha =>
    (h.node _ ha).data

end DocSelect
