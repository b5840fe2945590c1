import DocSelect.Proofs.Broadcast.Operand
import DocSelect.Proofs.Turns
import DocSelect.Proofs.Updating.Selecting

/-!
# Updating in place

A loop that assigns to its subject overwrites the selected elements of a slice, one after the other.
No element is in another one or in a variable, so that each gets the value that the expression had
on it before the loop, in whatever order they come. All else in the document stays, and with all
elements selected the slice becomes what a map of it would have been.
-/
namespace DocSelect

variable {settings : Settings} {σ ρ τ : Session} {document xs q r x y : Ref}
  {items picked done todo : List Ref} {e : Expr} {s : Selection} {hops : List Hop}

-- ---------------------------------------------------------------------------
-- Chains
-- ---------------------------------------------------------------------------

theorem exec_chain_append {es es' : List Expr} :
    (Step.chain (Expr.denoteAll (es ++ es')) r).exec settings σ = (.ok q, τ) ↔
      ∃ c υ, (Step.chain (Expr.denoteAll es) r).exec settings σ = (.ok c, υ) ∧
        (Step.chain (Expr.denoteAll es') c).exec settings υ = (.ok q, τ) := by
  rw [Expr.denoteAll_eq_map, List.map_append, chain_append, ← Expr.denoteAll_eq_map,
    ← Expr.denoteAll_eq_map]
  exact Eval.exec_bind_eq_ok_iff

theorem evaluate_steps (h : σ.store.isBranch r = false) :
    evaluate settings e r σ = (.ok q, τ) ↔
      (Step.chain (Expr.denoteAll e.steps) r).exec settings σ = (.ok q, τ) := by
  cases e with
  | chain es =>
    rw [evaluate_eq_ok_iff _ h, Expr.denote, Expr.steps]
  | _ => exact Iff.of_eq (congrArg (· = _) (exec_chain_single _).symm)

theorem Session.Plain.walk (h : σ.Plain [document])
    (hrun : (Step.chain (Expr.denoteAll (hops.map Hop.expr)) document).exec settings σ =
      (.ok xs, τ)) : σ.store.Walk document hops xs ∧ σ.Overwrites [] τ := by
  have hroot : document ∈ [document] ++ σ.bindings.values := List.mem_cons_self
  have hplain (r : Ref) (_ : r.index < σ.store.size) : σ.store.isBranch r = false :=
    h.unmarked.isBranch r
  obtain ⟨hwalk, -⟩ :=
    walk_of_evaluate_chain h.forest hplain (h.forest.root hroot) (.refl σ) hrun
  obtain ⟨υ, hυ, hrun'⟩ :=
    evaluate_chain_ok settings h.forest hwalk (h.forest.root hroot) (.refl σ)
  obtain rfl : υ = τ := (Prod.mk.inj (hrun'.symm.trans hrun)).2
  exact ⟨hwalk, hυ.bindings, hυ.size_le, fun hr _ => hυ.data hr, hυ.marks⟩

-- ---------------------------------------------------------------------------
-- The loop
-- ---------------------------------------------------------------------------

structure Session.Updated (settings : Settings) (σ : Session) (document : Ref) (e : Expr)
    (done : List Ref) (ρ : Session) : Prop where
  sound : ρ.Sound .soundness
  owned : ρ.Owned [document]
  overwrites : σ.Overwrites done ρ
  value {y : Ref} : y ∈ done → σ.value? settings e y = some (ρ.store.content y)

theorem evaluate_assign_this (hx : ρ.store.isBranch x = false)
    (h : evaluate settings (.assign (.var Step.subjectName) none e) x ρ = (.ok q, τ)) :
    ∃ c υ, evaluate settings e x ρ = (.ok c, υ) ∧
      τ = { υ with store := υ.store.set x c } := by
  have hthis : evaluate settings (.var Step.subjectName) x ρ = (.ok x, ρ) :=
    OperandForm.evaluate_this hx
  have hready : ρ.ready (.var Step.subjectName) = ρ := Session.ready_of_not_bindable rfl
  have hexec :=
    OperandForm.exec_denote settings (.assign none e) trivial (.var Step.subjectName) x ρ
  rw [OperandForm.on, OperandForm.prepared, hready, hthis] at hexec
  dsimp only at hexec
  rw [OperandForm.exec_applyAll_single hx, OperandForm.apply] at hexec
  rw [evaluate_eq_ok_iff _ hx, hexec] at h
  obtain ⟨c, υ, hvalue, hwrite⟩ := Eval.exec_bind_eq_ok_iff.1 h
  obtain ⟨result, hresult⟩ := exec_writeInto settings x c υ
  exact ⟨c, υ, hvalue, (Prod.mk.inj (hwrite.symm.trans hresult)).2⟩

namespace Session.Updated

section
variable (h : σ.Lists document xs items) (hρ : σ.Updated settings document e done ρ)
  (hdone : ∀ y ∈ done, y ∈ items)
include h hρ hdone

theorem data_eq : ρ.store.data xs = .slice items := by
  rw [hρ.overwrites.data h.known fun hin => ?_, h.data]
  exact h.plain.forest.not_mem_items Lists.document_mem h.within h.data (hdone xs hin)

theorem data_frame {a : Ref} (ha : σ.store.Known a) (hno : ¬ σ.store.Comprises xs a) :
    ρ.store.data a = σ.store.data a :=
  hρ.overwrites.data ha fun hin => hno (.part (.refl _ xs) (h.item_part (hdone a hin)))

theorem item_not_comprises (hx : x ∈ items) (hy : y ∈ items) (hne : y ≠ x) :
    ¬ ρ.store.Comprises y x := by
  obtain ⟨live, hrooted⟩ := hρ.owned
  obtain ⟨path, hpath⟩ := h.within
  have hbefore : σ.store.follow? document [] = some document := rfl
  have hwithin := h.plain.forest.follow?_frame Lists.document_mem
    (fun a => hρ.data_frame h hdone) hbefore hpath
  exact hrooted.item_not_comprises List.mem_cons_self ⟨path, hwithin⟩
    (hρ.data_eq h hdone) hx hy hne

theorem write (hs : settings.Calm) (he : e.assignFree = true) (hi : e.ignoreFree = true)
    (hx : x ∈ items) (hno : x ∉ done)
    (hrun : evaluate settings (.assign (.var Step.subjectName) none e) x ρ = (.ok q, τ)) :
    σ.Updated settings document e (x :: done) τ := by
  have hknown {y : Ref} (hy : y ∈ items) := hρ.overwrites.known (h.item_known hy)
  have hsingle := hρ.overwrites.isBranch h.plain.unmarked (h.item_known hx)
  obtain ⟨hτ, -, -⟩ := hρ.sound.after hs.regular.keeping (hknown hx) hrun
  have howned :=
    hρ.owned.evaluate hs.regular.keeping.gentle (.assign (.var Step.subjectName) none e) x
  rw [hrun] at howned
  obtain ⟨c, υ, hvalue, rfl⟩ := evaluate_assign_this hsingle hrun
  obtain ⟨hυ, hon, -⟩ := hρ.sound.after hs.regular.keeping (hknown hx) hvalue
  have hlater := evaluate_leads_of_assignFree Later.tolerant hs.regular.keeping.gentle he x ρ
  have hwrites := hρ.overwrites.evaluate hs h.plain.unmarked he hi x
  rw [hvalue] at hlater hwrites
  refine ⟨hτ, howned, hwrites.set h.plain.unmarked x c, fun {y} hy => ?_⟩
  rcases List.mem_cons.1 hy with rfl | hy
  · rw [← h.value?_eq hs hρ.overwrites hdone hx hno e, Session.value?, hvalue]
    exact congrArg some (υ.store.holds_set_self (hon.known (hknown hx)) c).content_eq.symm
  · -- what has got its value before has no other element in it
    have hyx : ¬ ρ.store.Comprises y x :=
      hρ.item_not_comprises h hdone hx (hdone y hy) fun heq => hno (heq ▸ hy)
    rw [hρ.value hy]
    refine congrArg some (hρ.sound.store.content_eq
      (fun a => ρ.store.Known a ∧ ρ.store.Comprises y a)
      ⟨hknown (hdone y hy), .refl _ y⟩ ?_ fun {a} ha => ?_).symm
    · exact fun ha hc => ⟨hρ.sound.store.part_known hc, ha.2.part hc⟩
    · have hne : a ≠ x := fun heq => hyx (heq ▸ ha.2)
      rw [υ.store.data_set_of_ne c (hon.known ha.1) hne]
      exact (hlater.node a ha.1).data

theorem run (hs : settings.Calm) (he : e.assignFree = true) (hi : e.ignoreFree = true)
    (hnodup : todo.Nodup) (htodo : ∀ x ∈ todo, x ∈ items ∧ x ∉ done) {u : Unit}
    (hrun : (Step.runAll (Expr.assign (.var Step.subjectName) none e).step todo).exec settings ρ =
      (.ok u, τ)) :
    σ.Updated settings document e (todo.reverse ++ done) τ := by
  induction todo generalizing ρ done with
  | nil =>
    cases hrun
    exact hρ
  | cons x rest ih =>
    rw [Step.runAll] at hrun
    obtain ⟨q, υ, hround, hrun⟩ := Eval.exec_bind_eq_ok_iff.1 hrun
    obtain ⟨hfirst, hnodup⟩ := List.nodup_cons.1 hnodup
    obtain ⟨hx, hno⟩ := htodo x List.mem_cons_self
    rw [List.reverse_cons, List.append_assoc]
    refine ih (hρ.write h hdone hs he hi hx hno hround) ?_ hnodup (fun y hy => ?_) hrun
    · exact fun y hy => (List.mem_cons.1 hy).elim (fun heq => heq ▸ hx) (hdone y)
    · obtain ⟨hyitem, hydone⟩ := htodo y (List.mem_cons_of_mem _ hy)
      refine ⟨hyitem, fun hin => ?_⟩
      rcases List.mem_cons.1 hin with rfl | hin
      · exact hfirst hy
      · exact hydone hin

end

end Session.Updated

-- ---------------------------------------------------------------------------
-- The map
-- ---------------------------------------------------------------------------

theorem Session.Lists.update (hs : settings.Calm) (h : σ.Lists document xs items) (hfree : s.Free)
    (he : e.assignFree = true) (hi : e.ignoreFree = true) (hsound : ρ.Sound .soundness)
    (howned : ρ.Owned [document]) (hρ : σ.Overwrites [] ρ)
    (hrun : (Step.chain (Expr.denoteAll
      (s.steps ++ [.each (.assign (.var Step.subjectName) none e)])) xs).exec settings ρ =
        (.ok r, τ)) :
    ∃ picked, s.Picks settings σ xs items picked ∧
      σ.Updated settings document e picked.reverse τ := by
  obtain ⟨q, υ, hselect, hloop⟩ := exec_chain_append.1 hrun
  obtain ⟨hυ, hsingle, picked, hdata, hpicks⟩ := Selection.exec hs h hρ hfree hselect
  have heval : evaluate settings (.chain s.steps) xs ρ = (.ok q, υ) :=
    (evaluate_steps (hρ.isBranch h.plain.unmarked h.known)).2 hselect
  obtain ⟨hυsound, -, -⟩ := hsound.after hs.regular.keeping (hρ.known h.known) heval
  have hυowned := howned.evaluate hs.regular.keeping.gentle (.chain s.steps) xs
  rw [heval] at hυowned
  rw [exec_chain_single, evaluate_eq_ok_iff _ hsingle, Expr.denote, Step.each] at hloop
  obtain ⟨_, _, helements, hloop⟩ := Eval.exec_bind_eq_ok_iff.1 hloop
  obtain ⟨hitems, rfl⟩ := exec_elements_eq_ok_iff.1 helements
  obtain ⟨_, ψ, hrounds, hend⟩ := Eval.exec_bind_eq_ok_iff.1 hloop
  obtain rfl : ψ = τ := (Prod.mk.inj hend).2
  cases hdata.symm.trans hitems
  have hupdated : σ.Updated settings document e [] υ := ⟨hυsound, hυowned, hυ, nofun⟩
  have hafter := hupdated.run h nofun hs he hi (hpicks.nodup h.nodup)
    (fun x hx => ⟨hpicks.mem hx, List.not_mem_nil⟩) hrounds
  rw [List.append_nil] at hafter
  exact ⟨picked, hpicks, hafter⟩

end DocSelect
