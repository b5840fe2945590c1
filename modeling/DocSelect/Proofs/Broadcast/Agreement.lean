import DocSelect.Proofs.Execution

/-!
# Evaluations that agree

Two evaluations agree in a session if they leave the same session, with the same result or with
errors of the same cause. The wrappers of an error say in which expressions it arose, so where one
of two agreeing evaluations goes through more of these, nothing else is different.

Going over the elements of a branch with a step agrees with leaving out ignored results as long as
there are none.
-/
namespace DocSelect

variable {α β : Type} {settings : Settings} {σ τ : Session}

/-- Two outcomes that differ only in what an error is wrapped in. -/
structure Agree (x y : Except EvalError α × Session) : Prop where
  result : x.1.mapError EvalError.rootCause = y.1.mapError EvalError.rootCause
  left : x.2 = y.2

namespace Agree

variable {x y z : Except EvalError α × Session}

theorem refl (x : Except EvalError α × Session) : Agree x x := ⟨rfl, rfl⟩

theorem of_eq (h : x = y) : Agree x y := h ▸ refl x

theorem symm (h : Agree x y) : Agree y x := ⟨h.result.symm, h.left.symm⟩

theorem trans (h : Agree x y) (k : Agree y z) : Agree x z :=
  ⟨h.result.trans k.result, h.left.trans k.left⟩

theorem cases_result (h : Agree x y) : (∃ r τ, x = (.ok r, τ) ∧ y = (.ok r, τ)) ∨
    ∃ e e' τ, x = (.error e, τ) ∧ y = (.error e', τ) ∧ e.rootCause = e'.rootCause := by
  obtain ⟨r | r, τ⟩ := x <;> obtain ⟨s | s, υ⟩ := y <;> obtain ⟨hr, hl⟩ := h
  · exact .inr ⟨_, _, _, rfl, congrArg _ hl.symm, Except.error.inj hr⟩
  · cases hr
  · cases hr
  · cases hr
    exact .inl ⟨_, _, rfl, congrArg _ hl.symm⟩

theorem eq_ok {a : α} (h : Agree x (.ok a, τ)) : x = (.ok a, τ) := by
  rcases h.cases_result with ⟨r, υ, hx, hy⟩ | ⟨e, e', υ, -, hy, -⟩
  · rw [hx, hy]
  · cases hy

theorem bind {x y : Eval α} {f g : α → Eval β}
    (h : Agree (x.exec settings σ) (y.exec settings σ))
    (hf : ∀ r τ, x.exec settings σ = (.ok r, τ) → y.exec settings σ = (.ok r, τ) →
      Agree ((f r).exec settings τ) ((g r).exec settings τ)) :
    Agree ((x >>= f).exec settings σ) ((y >>= g).exec settings σ) := by
  rw [Eval.exec_bind, Eval.exec_bind]
  rcases h.cases_result with ⟨r, τ, hx, hy⟩ | ⟨e, e', τ, hx, hy, he⟩
  · rw [hx, hy]
    exact hf r τ hx hy
  · rw [hx, hy]
    exact ⟨congrArg Except.error he, rfl⟩

theorem bind_right {x : Eval α} {f g : α → Eval β}
    (hf : ∀ r τ, x.exec settings σ = (.ok r, τ) →
      Agree ((f r).exec settings τ) ((g r).exec settings τ)) :
    Agree ((x >>= f).exec settings σ) ((x >>= g).exec settings σ) :=
  (refl _).bind fun r τ h _ => hf r τ h

theorem within (f : Step) (node : String) (r : Ref) :
    Agree ((Step.within node f r).exec settings σ) ((f r).exec settings σ) := by
  rw [exec_within]
  rcases (f r).exec settings σ with ⟨_ | _, _⟩
  · exact ⟨rfl, rfl⟩
  · exact refl _

theorem evaluate (e : Expr) {r : Ref} (h : σ.store.isBranch r = false) :
    Agree (DocSelect.evaluate settings e r σ) ((e.denote r).exec settings σ) := by
  rw [evaluate_eq_within e h]
  exact within ..

/-- Two loops over the same nodes, of which one leaves out ignored results. The invariant is one of
all sessions between two rounds; no result is ignored where it holds. -/
theorem collect {f g : Step} {items : List Ref} {I : Session → Prop}
    (hstep : ∀ r ∈ items, ∀ σ, I σ →
      Agree ((f r).exec settings σ) ((g r).exec settings σ))
    (hkeep : ∀ r ∈ items, ∀ σ q τ, I σ → (g r).exec settings σ = (.ok q, τ) →
      I τ ∧ τ.store.isIgnored q = false)
    (hσ : I σ) :
    Agree ((Step.collect f items).exec settings σ)
      ((Step.collectKept g items).exec settings σ) := by
  induction items generalizing σ with
  | nil => exact refl _
  | cons r items ih =>
    refine (hstep r List.mem_cons_self σ hσ).bind fun q τ _ hq => ?_
    obtain ⟨hτ, hshown⟩ := hkeep r List.mem_cons_self σ q τ hσ hq
    rw [Eval.exec_bind _ (Eval.read _), Eval.exec_read]
    simp only [hshown, Bool.false_eq_true, if_false]
    refine bind_right fun contributed υ h => ?_
    rw [Eval.exec_ask] at h
    obtain rfl : τ = υ := (Prod.mk.inj h).2
    refine bind (ih (fun c hc => hstep c (List.mem_cons_of_mem _ hc))
      (fun c hc => hkeep c (List.mem_cons_of_mem _ hc)) hτ) fun _ _ _ _ => refl _

end Agree

end DocSelect
