import DocSelect.Json.Writer
import DocSelect.Proofs.Forest
import DocSelect.Proofs.Merging.Value

/-!
# Merged chains

A chain in a chain can be merged with it. Before, the inner chain runs to its end for each element
of a branch; after, each of its steps runs over all elements. For expressions without effects this
makes no difference: both are going through the meanings of the steps.
-/
namespace DocSelect

variable {settings : Settings} {σ τ : Session} {r subject : Ref} {e : Expr} {es : List Expr}

-- ---------------------------------------------------------------------------
-- Expressions without effects
-- ---------------------------------------------------------------------------

namespace Expr.Quiet

theorem chain_iff : (Expr.chain es).Quiet ↔ ∀ e ∈ es, e.Quiet := by
  have hall {test : Expr → Bool} (ht : test (.chain es) = true) :
      (Expr.chain es).all test = true ↔ ∀ e ∈ es, e.all test = true := by
    rw [Expr.all, ht, Bool.true_and, allList_iff]
  constructor
  · intro h e he
    exact ⟨(hall rfl).1 h.assignFree e he, (hall rfl).1 h.spreadFree e he,
      (hall rfl).1 h.ignoreFree e he⟩
  · intro h
    exact ⟨(hall rfl).2 fun e he => (h e he).assignFree,
      (hall rfl).2 fun e he => (h e he).spreadFree, (hall rfl).2 fun e he => (h e he).ignoreFree⟩

theorem steps (h : e.Quiet) : ∀ s ∈ e.steps, s.Quiet := by
  unfold Expr.steps
  split
  · exact chain_iff.1 h
  · intro s hs
    rwa [List.mem_singleton.1 hs]

end Expr.Quiet

-- ---------------------------------------------------------------------------
-- Chains
-- ---------------------------------------------------------------------------

theorem result_of_not_branch (h : σ.store.isBranch r = false) (e : Expr) :
    Shape.result (evaluate settings e r σ) = Shape.result ((e.denote r).exec settings σ) := by
  rw [evaluate_of_not_branch e h]
  rcases (e.denote r).exec settings σ with ⟨_ | _, _⟩ <;> rfl

namespace Session.Clean

variable (hs : settings.Regular)

theorem exists_single (h : σ.Clean) (hr : σ.store.Known r) {v : Value}
    (hv : v ∈ (σ.shape r).elements) : ∃ c, σ.store.Single c ∧ σ.value c = v := by
  have hflat := h.sound.store.flatten_eq (r := r)
  rw [h.elements_shape hflat] at hv
  obtain ⟨c, hc, rfl⟩ := List.mem_map.1 hv
  exact ⟨c, h.sound.store.flatten_single hr hflat c hc, rfl⟩

include hs in
/-- The steps of a chain, one after the other, go through the meanings of its expressions. -/
theorem gives_chain (h : σ.Clean) (hr : σ.store.Known r) (hes : ∀ e ∈ es, e.Quiet) :
    σ.GivesNode ((Step.chain (es.map Expr.step) r).exec settings σ)
      (Shape.through (es.map (Expr.meaning hs.respectful)) (σ.shape r)) := by
  induction es generalizing σ r with
  | nil => exact .ok h (.refl σ) hr
  | cons e es ih =>
    refine (h.gives_evaluate hs hr (hes e List.mem_cons_self)).bind fun q τ hτ _ hq => ?_
    exact ih hτ hq fun s hs => hes s (List.mem_cons_of_mem _ hs)

include hs in
theorem result_chain (h : σ.Clean) (hr : σ.store.Known r) (hes : ∀ e ∈ es, e.Quiet) :
    Shape.result (DocSelect.evaluate settings (.chain es) r σ) =
      Shape.through (es.map (Expr.meaning hs.respectful)) (σ.shape r) := by
  rw [(h.gives_evaluate hs hr (Expr.Quiet.chain_iff.2 hes)).result_eq, ← Shape.each_through]
  refine Shape.each_congr fun v hv => ?_
  obtain ⟨c, hc, rfl⟩ := h.exists_single hr hv
  rw [meaning_value, result_of_not_branch hc.not_branch, Expr.denote, Expr.denoteAll_eq_map,
    ← shape_single hc.not_branch]
  exact (h.gives_chain hs hc.known hes).result_eq

-- ---------------------------------------------------------------------------
-- Merging
-- ---------------------------------------------------------------------------

include hs in
theorem each_meaning (h : σ.Clean) (hr : σ.store.Known r) (he : e.Quiet) :
    (σ.shape r).each (e.meaning hs.respectful) =
      Shape.through (e.steps.map (Expr.meaning hs.respectful)) (σ.shape r) := by
  have hsteps := he.steps
  unfold Expr.steps at hsteps ⊢
  split at hsteps
  · rw [← h.result_chain hs hr hsteps, (h.gives_evaluate hs hr he).result_eq]
  · simp [Shape.through]

include hs in
theorem through_steps (h : σ.Clean) (hr : σ.store.Known r) (hes : ∀ e ∈ es, e.Quiet) :
    Shape.through (es.map (Expr.meaning hs.respectful)) (σ.shape r) =
      Shape.through ((es.flatMap Expr.steps).map (Expr.meaning hs.respectful)) (σ.shape r) := by
  induction es generalizing σ r with
  | nil => rfl
  | cons e es ih =>
    have he := hes e List.mem_cons_self
    rw [List.map_cons, List.flatMap_cons, List.map_append, Shape.through_append,
      ← h.each_meaning hs hr he, Shape.through]
    -- what the first expression gives is again the shape of a node in a clean session
    have hfirst := h.gives_evaluate hs hr he
    generalize (σ.shape r).each (e.meaning hs.respectful) =
      y, DocSelect.evaluate settings e r σ = x at hfirst
    cases hfirst with
    | ok hτ _ hq => exact ih hτ hq fun s hs => hes s (List.mem_cons_of_mem _ hs)
    | error => rfl

include hs in
theorem result_chained (h : σ.Clean) (hr : σ.store.Known r) (hes : ∀ e ∈ es, e.Quiet) :
    Shape.result (DocSelect.evaluate settings (Expr.chained es) r σ) =
      Shape.result (DocSelect.evaluate settings (.chain es) r σ) := by
  have hflat : ∀ s ∈ es.flatMap Expr.steps, s.Quiet := fun s hs => by
    obtain ⟨e, he, hs⟩ := List.mem_flatMap.1 hs
    exact (hes e he).steps s hs
  rw [h.result_chain hs hr hes, h.through_steps hs hr hes, Expr.chained]
  split
  · rename_i e heq
    rw [heq] at hflat ⊢
    rw [(h.gives_evaluate hs hr (hflat e List.mem_cons_self)).result_eq]
    simp [Shape.through]
  · exact h.result_chain hs hr hflat

end Session.Clean

/-- Where the subject and the variables are as they are read, and so is all that is below them,
merging chains of expressions without effects makes no difference to what is seen: both fail, or
both give the same content, as one result or as a branch. -/
theorem seen_chained (files : FileSystem) (environment : Environment) (limit : Nat)
    (hσ : σ.Reachable ⟨Registry.builtins files, environment, limit⟩)
    (hsub : σ.store.Known subject)
    (hlive : ∀ r, σ.Live subject r →
      σ.store.isIgnored r = false ∧ σ.store.isSpread r = false) (hes : ∀ e ∈ es, e.Quiet) :
    seen (evaluate ⟨Registry.builtins files, environment, limit⟩ (Expr.chained es) subject σ) =
      seen (evaluate ⟨Registry.builtins files, environment, limit⟩ (.chain es) subject σ) := by
  have hs := Settings.regular_builtins files environment limit
  have hsound := hσ.sound hs.keeping
  obtain ⟨m, τ, halike, hm, hτ, hbears⟩ :=
    hsound.exists_alike (P := fun k => k.Shown ∧ k.Whole) hsub ⟨rfl, rfl⟩ hlive
  have hclean : τ.Clean := ⟨hτ, fun r => (hbears r).1, fun r => (hbears r).2⟩
  have hknown : τ.store.Known subject := (halike.store.lt hm).2
  have hseen (e : Expr) := seen_eq (hsound.outcome hs.keeping e hsub).left
  simp only [← evaluate_eq_exec] at hseen
  rw [hseen, hseen, result_eq_of_alike hs.respectful _ halike hm,
    result_eq_of_alike hs.respectful _ halike hm, hclean.result_chained hs hknown hes]

/-- The elements of the elements of the elements of a document, by a chain in a chain. -/
theorem seen_chained_branches :
    let settings : Settings := ⟨Registry.builtins FileSystem.bare, fun _ => none, 10⟩
    let start :=
      Session.start (.slice [.slice [.slice [.int 1]], .slice [.slice [.int 2, .int 3]]]) []
    let es : List Expr := [.branch [], .chain [.branch [], .branch []]]
    (∀ e ∈ es, e.Quiet) ∧
      (seen (evaluate settings (.chain es) start.1 start.2)).map (fun (c, branch) =>
        (Json.compact c, branch)) = some ("[1,2,3]".toList, true) ∧
      seen (evaluate settings (Expr.chained es) start.1 start.2) =
        seen (evaluate settings (.chain es) start.1 start.2) := by
  intro settings start es
  have hunmarked := (Session.Plain.start
    (.slice [.slice [.slice [.int 1]], .slice [.slice [.int 2, .int 3]]]) []).unmarked
  have hes : (Expr.chain es).Quiet := ⟨by decide, by decide, by decide⟩
  refine ⟨Expr.Quiet.chain_iff.1 hes, by decide +kernel,
    seen_chained _ _ _ (.start settings _ _) ?_ (fun r _ => ?_) (Expr.Quiet.chain_iff.1 hes)⟩
  · show 7 < 8
    decide
  · rw [Store.isIgnored, Store.isSpread, hunmarked]
    exact ⟨rfl, rfl⟩

end DocSelect
