import DocSelect.Proofs.Forest
import DocSelect.Proofs.Reachable

/-!
# Where spreads are stored

A spread is meant to be taken apart by the list around it, and to lose its mark where it is stored.
All containers but one see to that: as long as no branch takes up a spread, no part of any container
is one. A branch takes up spreads that are results for its elements, and keeps their marks, so they
are taken apart again later.
-/
namespace DocSelect

/-- Evaluation stores a spread nowhere, at no moment, if it never stores one in a branch. -/
theorem settled_of_calm (files : FileSystem) (environment : Environment) (limit : Nat)
    {σ : Session} (hσ : σ.Reachable ⟨Registry.builtins files, environment, limit⟩)
    (hsettled : σ.store.Settled) (e : Expr) {subject : Ref} (hsub : σ.store.Known subject)
    (hcalm : ∀ τ, (e.step subject).Passes ⟨Registry.builtins files, environment, limit⟩ σ τ →
      τ.store.Calm) :
    (evaluate ⟨Registry.builtins files, environment, limit⟩ e subject σ).2.store.Settled ∧
      ∀ τ, (e.step subject).Passes ⟨Registry.builtins files, environment, limit⟩ σ τ →
        τ.store.Settled := by
  have hs := Settings.keeping_builtins .spreads files environment limit
  have hsound : σ.Sound .spreads :=
    (hσ.sound (Settings.keeping_builtins .soundness files environment limit)).of_settled fun _ =>
      hsettled
  have hruns := e.runs_lift hs (e.all_of_forall fun _ => rfl) subject σ hsound hsub
  have houtcome := hruns.keeps limit fun _ => hcalm
  exact ⟨houtcome.left.store.settled rfl,
    fun τ hτ => (houtcome.passed τ hτ).store.settled rfl⟩

/-- A spread alone is stored nowhere. -/
theorem settled_of_calm_spread :
    let settings : Settings := ⟨Registry.builtins FileSystem.bare, fun _ => none, 10⟩
    let start := Session.start (.slice [.int 1]) []
    start.2.Reachable settings ∧ start.2.store.Settled ∧ start.2.store.Known start.1 ∧
      (∀ τ, (Expr.spread.step start.1).Passes settings start.2 τ → τ.store.Calm) ∧
      (evaluate settings .spread start.1 start.2).2.store.Settled := by
  intro settings start
  have hσ : start.2.Reachable settings := .start settings _ _
  have hunmarked : start.2.store.Unmarked := (Session.Plain.start (.slice [.int 1]) []).unmarked
  have hsettled : start.2.store.Settled := fun r c _ => by
    rw [Store.isSpread, hunmarked c]
    rfl
  have hknown : start.2.store.Known start.1 := by
    show 1 < 2
    decide
  have hbranch (r : Ref) : (start.2.store.new (.slice [⟨0⟩])).2.isBranch r = false := by
    rw [Store.isBranch, hunmarked.new _ r]
    rfl
  -- the new slice, before and after it is marked
  have hstores (τ : Session) (hτ : (Expr.spread.step start.1).Passes settings start.2 τ) :
      τ.store = (start.2.store.new (.slice [⟨0⟩])).2 ∨
        τ.store = (start.2.store.new (.slice [⟨0⟩])).2.markSpread ⟨2⟩ := by
    rcases (Eval.moments_bind ..).1 hτ with h | ⟨_, _, hx, hτ⟩
    · exact absurd h (Eval.moments_read settings _ _)
    cases hx
    rcases (Eval.moments_tryCatch ..).1 hτ with hτ | ⟨_, _, hx, -⟩
    · rcases (Eval.moments_bind ..).1 hτ with h | ⟨_, _, hx, hτ⟩
      · exact absurd h (Eval.moments_read settings _ _)
      cases hx
      rcases (Eval.moments_bind ..).1 hτ with hτ | ⟨_, _, hx, hτ⟩
      · exact .inl (congrArg Session.store (Moment.state.inj ((Eval.moments_new ..).1 hτ)))
      cases hx
      rcases (Eval.moments_bind ..).1 hτ with hτ | ⟨_, _, -, hτ⟩
      · exact .inr (congrArg Session.store (Moment.state.inj ((Eval.moments_change ..).1 hτ)))
      · exact absurd hτ (Eval.moments_pure settings _ _)
    · cases hx
  have hcalm : ∀ τ, (Expr.spread.step start.1).Passes settings start.2 τ → τ.store.Calm := by
    intro τ hτ r c hb
    rcases hstores τ hτ with h | h
    · rw [h, hbranch] at hb
      cases hb
    · have hmark := (start.2.store.new (.slice [⟨0⟩])).2.isBranch_mark
        (f := fun m => { m with spread := true }) (fun _ => rfl) r ⟨2⟩
      rw [h, Store.markSpread, hmark] at hb
      cases (hbranch r).symm.trans hb
  exact ⟨hσ, hsettled, hknown, hcalm, (settled_of_calm _ _ _ hσ hsettled _ hknown hcalm).1⟩

/-- The element of a branch is a pending spread: both arrays in front of the spread are taken apart
again by whatever comes next. -/
theorem spread_left_in_branch :
    let start := Session.start .null []
    let e : Expr := .chain [.branch [.array [.integer 1, .integer 2], .array [.integer 3]], .spread]
    let (result, τ) :=
      evaluate ⟨Registry.builtins FileSystem.bare, fun _ => none, 10⟩ e start.1 start.2
    ∃ r c, result = .ok r ∧ τ.store.isBranch r = true ∧ τ.store.Part c r ∧
      τ.store.isSpread c = true := by
  exact ⟨⟨9⟩, ⟨7⟩, rfl, rfl, List.mem_cons_self, rfl⟩

end DocSelect
