import DocSelect.Eval.Calls
import DocSelect.Proofs.Effects.Evaluation

/-!
# What an evaluation without assignments leaves alone

It may take up nodes of the document, mark them as ignored and clear their spread marks. Apart from
that it only adds nodes: the variables, the data of all nodes that were there, their branch marks
and their notes are the same afterwards.
-/
namespace DocSelect

/-- A node as it may be found later: marked as ignored, or no longer as a spread. -/
structure Node.Later (before after : Node) : Prop where
  data : after.data = before.data
  branch : after.marks.branch = before.marks.branch
  notes : after.marks.notes = before.marks.notes
  ignored : before.marks.ignored = true → after.marks.ignored = true
  spread : after.marks.spread = true → before.marks.spread = true

namespace Node.Later

theorem refl (n : Node) : n.Later n := ⟨rfl, rfl, rfl, id, id⟩

theorem trans {n n' n'' : Node} (h : n.Later n') (k : n'.Later n'') : n.Later n'' where
  data := k.data.trans h.data
  branch := k.branch.trans h.branch
  notes := k.notes.trans h.notes
  ignored hn := k.ignored (h.ignored hn)
  spread hn := h.spread (k.spread hn)

end Node.Later

/-- A session as it may be found later: the variables are the same, and the nodes that were there
only have other marks. -/
structure Session.Later (before after : Session) : Prop where
  bindings : after.bindings = before.bindings
  size_le : before.store.size ≤ after.store.size
  node (r : Ref) : r.index < before.store.size → (before.store.node r).Later (after.store.node r)

namespace Session.Later

variable {σ τ υ : Session}

theorem refl (σ : Session) : σ.Later σ := ⟨rfl, Nat.le_refl _, fun _ _ => .refl _⟩

theorem trans (h : σ.Later τ) (k : τ.Later υ) : σ.Later υ where
  bindings := k.bindings.trans h.bindings
  size_le := Nat.le_trans h.size_le k.size_le
  node r hr := (h.node r hr).trans (k.node r (Nat.lt_of_lt_of_le hr h.size_le))

theorem mark (σ : Session) (r : Ref) {f : Marks → Marks}
    (hf : ∀ n : Node, n.Later ⟨n.data, f n.marks⟩) :
    σ.Later { σ with store := σ.store.mark r f } where
  bindings := rfl
  size_le := by simp [Store.mark]
  node q hq := by
    rw [Store.mark]
    by_cases heq : q = r
    · subst heq
      rw [Store.node_modify_self _ _ hq]
      exact hf _
    · rw [Store.node_modify_of_ne _ _ heq]
      exact .refl _

theorem tolerant : Tolerant Session.Later where
  refl := refl
  trans := trans
  touch σ s h := by
    cases h with
    | add n =>
      refine ⟨rfl, by simp, fun r hr => ?_⟩
      rw [σ.store.node_add_of_lt n hr]
      exact .refl _
    | ignore r => exact mark σ r fun _ => ⟨rfl, rfl, rfl, fun _ => rfl, id⟩
    | clearSpread r =>
      exact mark σ r fun _ => ⟨rfl, rfl, rfl, id, fun h => absurd h Bool.false_ne_true⟩

end Session.Later

/-- Without assignments, an evaluation leaves the variables and what the nodes hold as they are,
whether it succeeds or fails. -/
theorem evaluate_later (files : FileSystem) (environment : Environment) (limit : Nat) {e : Expr}
    (he : e.assignFree = true) (subject : Ref) (σ : Session) :
    σ.Later (evaluate ⟨Registry.builtins files, environment, limit⟩ e subject σ).2 :=
  evaluate_leads_of_assignFree Session.Later.tolerant
    (Settings.gentle_builtins files environment limit) he subject σ

/-- Sorting a document by a key that is marked as ignored leaves the document as it is. -/
theorem evaluate_later_sortBy :
    let e := Expr.sortBy (.chain [.property "a", .call "ignore" []]) .ascending
    let (document, σ) := Session.start (.slice [.map [("a", .int 2)], .map [("a", .int 1)]]) []
    e.assignFree = true ∧
      σ.Later (evaluate ⟨Registry.builtins FileSystem.bare, fun _ => none, 10⟩ e
        document σ).2 :=
  ⟨by decide, evaluate_later _ _ _ (by decide) _ _⟩

end DocSelect
