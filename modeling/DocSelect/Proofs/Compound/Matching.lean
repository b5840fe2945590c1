import DocSelect.Proofs.Alike.Evaluation
import DocSelect.Proofs.Alike.Trim
import DocSelect.Proofs.Broadcast.Operand
import DocSelect.Proofs.Quiet
import DocSelect.Proofs.Turns

/-!
# Outcomes that match

Evaluations of different expressions, in sessions that are alike, may end alike up to the
expressions that an error names on its way out. The loop over the elements of a branch carries this
from its rounds to the whole.
-/
namespace DocSelect

variable {α β γ δ : Type} {settings : Settings} {σ τ υ ψ : Session} {m l : Pairing}
  {e e' t : Expr} {a b r q : Ref} {w : Concern}

/-- Outcomes in sessions that are alike along a larger pairing, with related results or errors of
the same cause. -/
def Matches (m : Pairing) (R : Pairing → α → β → Prop) (x : Except EvalError α × Session)
    (y : Except EvalError β × Session) : Prop :=
  ∃ l, m ≤ l ∧ x.2.Alike l y.2 ∧
    Except.Alike (R l) (x.1.mapError EvalError.rootCause) (y.1.mapError EvalError.rootCause)

namespace Matches

variable {R : Pairing → α → β → Prop} {S : Pairing → γ → δ → Prop}

theorem ok {a : α} {b : β} (hl : m ≤ l) (h : σ.Alike l τ) (hab : R l a b) :
    Matches m R (.ok a, σ) (.ok b, τ) := ⟨l, hl, h, .ok hab⟩

theorem error {x y : EvalError} (hl : m ≤ l) (h : σ.Alike l τ)
    (hxy : x.rootCause = y.rootCause) :
    Matches m R ((.error x : Except EvalError α), σ) ((.error y : Except EvalError β), τ) := by
  refine ⟨l, hl, h, ?_⟩
  simp only [Except.mapError, hxy]
  exact .error _

theorem cases_result {x : Except EvalError α × Session} {y : Except EvalError β × Session}
    (h : Matches m R x y) :
    (∃ l a b, m ≤ l ∧ x.1 = .ok a ∧ y.1 = .ok b ∧ x.2.Alike l y.2 ∧ R l a b) ∨
      ∃ l e e', m ≤ l ∧ x.1 = .error e ∧ y.1 = .error e' ∧ x.2.Alike l y.2 ∧
        e.rootCause = e'.rootCause := by
  obtain ⟨l, hl, hsession, hresult⟩ := h
  obtain ⟨x | a, σ⟩ := x <;> obtain ⟨y | b, τ⟩ := y <;>
    simp only [Except.mapError] at hresult
  · refine .inr ⟨l, x, y, hl, rfl, rfl, hsession, ?_⟩
    generalize x.rootCause = c, y.rootCause = d at hresult
    cases hresult
    rfl
  · cases hresult
  · cases hresult
  · cases hresult with
    | ok hab => exact .inl ⟨l, a, b, hl, rfl, rfl, hsession, hab⟩

theorem of_alike {x : Eval α} {y : Eval β} (h : Eval.Alike settings m R x y)
    (hσ : σ.Alike m τ) : Matches m R (x.exec settings σ) (y.exec settings τ) := by
  obtain ⟨l, hl, hsession, hresult⟩ := h m (le_refl m) σ τ hσ
  exact ⟨l, hl, hsession, hresult.mapError _⟩

theorem weaken {x : Except EvalError α × Session} {y : Except EvalError β × Session}
    (hml : m ≤ l) (h : Matches l R x y) : Matches m R x y := by
  obtain ⟨k, hk, hsession, hresult⟩ := h
  exact ⟨k, hml.trans hk, hsession, hresult⟩

theorem bind {x : Eval α} {y : Eval β} {f : α → Eval γ} {g : β → Eval δ}
    (h : Matches m R (x.exec settings σ) (y.exec settings τ))
    (hf : ∀ l a b υ ψ, m ≤ l → x.exec settings σ = (.ok a, υ) →
      y.exec settings τ = (.ok b, ψ) →
      υ.Alike l ψ → R l a b → Matches l S ((f a).exec settings υ) ((g b).exec settings ψ)) :
    Matches m S ((x >>= f).exec settings σ) ((y >>= g).exec settings τ) := by
  rw [Eval.exec_bind, Eval.exec_bind]
  rcases hx : x.exec settings σ with ⟨x' | a, υ⟩ <;>
    rcases hy : y.exec settings τ with ⟨y' | b, ψ⟩ <;>
    rw [hx, hy] at h <;>
    rcases h.cases_result with ⟨l, _, _, hl, ha, hb, hsession, hab⟩ |
      ⟨l, _, _, hl, ha, hb, hsession, hxy⟩ <;>
    cases ha <;> cases hb
  · exact error hl hsession hxy
  · exact (hf l a b υ ψ hl hx hy hsession hab).weaken hl

theorem congr {x x' : Except EvalError α × Session} {y y' : Except EvalError β × Session}
    (hx : Agree x x') (hy : Agree y y') (h : Matches m R x' y') : Matches m R x y := by
  obtain ⟨l, hl, hsession, hresult⟩ := h
  refine ⟨l, hl, ?_, ?_⟩
  · rwa [hx.left, hy.left]
  · rwa [hx.result, hy.result]

theorem evaluate (ha : σ.store.isBranch a = false) (hb : τ.store.isBranch b = false)
    (h : Matches m (fun l => l) ((e.denote a).exec settings σ) ((e'.denote b).exec settings τ)) :
    Matches m (fun l => l) (evaluate settings e a σ) (evaluate settings e' b τ) :=
  h.congr (.evaluate e ha) (.evaluate e' hb)

end Matches

-- ---------------------------------------------------------------------------
-- Sessions
-- ---------------------------------------------------------------------------

theorem Marks.Alike.symm {k k' : Marks} (h : k.Alike k') : k'.Alike k :=
  ⟨h.branch.symm, h.spread.symm, h.ignored.symm⟩

theorem Marks.Alike.trans {k k' k'' : Marks} (h : k.Alike k') (h' : k'.Alike k'') : k.Alike k'' :=
  ⟨h.branch.trans h'.branch, h.spread.trans h'.spread, h.ignored.trans h'.ignored⟩

theorem Session.Sound.alike_self (h : σ.Sound w) :
    σ.Alike (fun a b => a = b ∧ σ.store.Known a) σ :=
  ⟨.of_kept (fun hr => ⟨hr, hr⟩) (fun _ => h.store.grounded _)
    (fun _ hc => h.store.part_known hc) (fun _ => rfl) (fun _ => ⟨rfl, rfl, rfl⟩),
    List.forall₂_same.2 fun _ he => ⟨rfl, rfl, h.bindings (List.mem_map_of_mem he)⟩⟩

theorem Session.Alike.withBound (h : σ.Alike m τ) (name : String) :
    ∃ l, m ≤ l ∧ (σ.withBound name).Alike l (τ.withBound name) := by
  -- the settings make no difference
  let settings : Settings := ⟨⟨[], List.nodup_nil⟩, fun _ => none, 0⟩
  have hbinds :
      Eval.Alike settings m (fun _ _ _ => True) (Step.bindUnbound name) (Step.bindUnbound name) :=
    Step.Respectful.bindUnbound name
  obtain ⟨l, hl, hsession, -⟩ := hbinds m (le_refl m) σ τ h
  rw [exec_bindUnbound, exec_bindUnbound] at hsession
  exact ⟨l, hl, hsession⟩

theorem Session.Alike.ready (h : σ.Alike m τ) (t : Expr) :
    ∃ l, m ≤ l ∧ (σ.ready t).Alike l (τ.ready t) := by
  unfold Session.ready
  split
  · exact h.withBound _
  · exact ⟨m, le_refl m, h⟩

/-- Sessions stay alike when one of them gets more nodes and marks, if the marks still agree. -/
theorem Session.Alike.later_right (h : σ.Alike m τ) (hτ : τ.Later υ)
    (hmarks : ∀ {a b}, m a b → (σ.store.marks a).Alike (υ.store.marks b)) :
    σ.Alike m υ := by
  refine ⟨⟨h.store.left, h.store.right, fun hab => ?_, fun hab => ?_, hmarks,
    h.store.grounded⟩, ?_⟩
  · exact ⟨(h.store.lt hab).1, Nat.lt_of_lt_of_le (h.store.lt hab).2 hτ.size_le⟩
  · have hdata : υ.store.data _ = _ := (hτ.node _ (h.store.lt hab).2).data
    rw [hdata]
    exact h.store.data hab
  · rw [hτ.bindings]
    exact h.bindings

theorem Session.Alike.extends_right (h : σ.Alike m τ) (hτ : τ.Extends υ) : σ.Alike m υ :=
  h.later_right hτ.later fun hab => by
    rw [hτ.marks (h.store.lt hab).2]
    exact h.store.marks hab

theorem Session.Alike.extends_left (h : σ.Alike m τ) (hσ : σ.Extends υ) : υ.Alike m τ := by
  have hdata {a b : Ref} (hab : m a b) : υ.store.data a = σ.store.data a :=
    hσ.data (h.store.lt hab).1
  refine ⟨⟨h.store.left, h.store.right, fun hab => ?_, fun hab => ?_, fun hab => ?_,
    fun {a b} hab => ?_⟩, ?_⟩
  · exact ⟨Nat.lt_of_lt_of_le (h.store.lt hab).1 hσ.size_le, (h.store.lt hab).2⟩
  · rw [hdata hab]
    exact h.store.data hab
  · rw [hσ.marks (h.store.lt hab).1]
    exact h.store.marks hab
  · refine (h.store.grounded hab).of_data_eq (fun a => ∃ b, m a b)
      ⟨b, hab⟩ ?_ fun ⟨_, hab⟩ => hdata hab
    rintro a c ⟨b, hab⟩ hc
    obtain ⟨d, -, hcd⟩ := exists_of_forall₂_left (h.store.data hab).children hc
    exact ⟨d, hcd⟩
  · rw [hσ.bindings]
    exact h.bindings

theorem Session.Alike.evaluate_ok (hg : settings.Respectful) (h : σ.Alike m τ) (hab : m a b)
    (heval : evaluate settings e a σ = (.ok r, υ)) :
    ∃ l q ψ, m ≤ l ∧ evaluate settings e b τ = (.ok q, ψ) ∧ υ.Alike l ψ ∧ l r q := by
  obtain ⟨l, hl, halike, hresult⟩ := evaluate_alike hg e hab h
  rcases heval' : evaluate settings e b τ with ⟨y | q, ψ⟩ <;>
    rw [heval, heval'] at halike hresult <;>
    cases hresult
  rename_i hq
  exact ⟨l, q, ψ, hl, rfl, halike, hq⟩

theorem Store.Alike.turns {s s' : Store} (h : s.Alike m s') (hab : m a b) :
    List.Forall₂ m (s.turns a) (s'.turns b) := by
  unfold Store.turns
  rw [h.isBranch_eq hab]
  split
  · exact (h.data hab).children
  · exact .cons hab .nil

theorem Store.Alike.single {s s' : Store} (h : s.Alike m s') (hab : m a b) (ha : s.Single a) :
    s'.Single b :=
  ⟨(h.lt hab).2, (h.isBranch_eq hab).symm.trans ha.not_branch⟩

-- ---------------------------------------------------------------------------
-- Loops
-- ---------------------------------------------------------------------------

theorem matches_collectKept (hs : settings.Keeping .soundness) {items items' : List Ref}
    (hitems : List.Forall₂ m items items') (hσ : σ.Sound .soundness) (hτ : τ.Sound .soundness)
    (h : σ.Alike m τ) (hsingle : ∀ r ∈ items, σ.store.Single r)
    (hround : ∀ l ρ ρ' r r', Session.Reaching settings e σ items ρ r →
      ρ.Sound .soundness →
      ρ'.Sound .soundness → ρ.Alike l ρ' → l r r' → ρ.store.Single r →
      Matches l (fun l => l) (evaluate settings e r ρ) (evaluate settings e' r' ρ')) :
    Matches m (fun l => List.Forall₂ l)
      ((Step.collectKept (Step.within e.kindName e.denote) items).exec settings σ)
      ((Step.collectKept (Step.within e'.kindName e'.denote) items').exec settings τ) := by
  induction items generalizing items' m σ τ with
  | nil =>
    cases hitems
    exact .ok (le_refl m) h .nil
  | cons r rest ih =>
    obtain _ | @⟨_, r', _, rest', hr, hrest⟩ := hitems
    have hr₁ := hsingle r List.mem_cons_self
    have hr₂ := h.store.single hr hr₁
    have hmatch := hround m σ τ r r' (.here σ r rest) hσ hτ h hr hr₁
    rw [exec_collectKept_turn hs hσ hr₁, exec_collectKept_turn hs hτ hr₂]
    rcases hx : evaluate settings e r σ with ⟨x | q, υ⟩ <;>
      rcases hy : evaluate settings e' r' τ with ⟨y | q', ψ⟩ <;> rw [hx, hy] at hmatch <;>
      rcases hmatch.cases_result with
        ⟨l, _, _, hl, ha, hb, halike, hq⟩ | ⟨l, _, _, hl, ha, hb, halike, hcause⟩ <;>
      cases ha <;> cases hb
    · exact .error hl halike hcause
    obtain ⟨hυ, hon, -⟩ := hσ.after hs hr₁.known hx
    obtain ⟨hψ, -, -⟩ := hτ.after hs hr₂.known hy
    obtain ⟨k, hk, hloops, hfound⟩ := ih (hrest.imp fun _ _ => hl _ _) hυ hψ halike
      (fun c hc => hon.single (hsingle c (List.mem_cons_of_mem _ hc)))
      (fun l' ρ ρ' c c' hreach => hround l' ρ ρ' c c' (.later hx hreach))
    dsimp only
    rcases hx' : (Step.collectKept (Step.within e.kindName e.denote) rest).exec settings υ with
      ⟨x | found, ρ⟩ <;>
      rcases hy' : (Step.collectKept (Step.within e'.kindName e'.denote) rest').exec
        settings ψ with ⟨y | found', ρ'⟩ <;> rw [hx', hy'] at hloops hfound
    · exact ⟨k, hl.trans hk, hloops, hfound⟩
    · cases hfound
    · cases hfound
    · cases hfound with
      | ok hfound =>
        refine .ok (hl.trans hk) hloops ?_
        rw [halike.store.isIgnored_eq hq]
        split
        · exact hfound
        · exact List.rel_append ((halike.store.turns hq).imp fun _ _ => hk _ _) hfound

theorem matches_of_turns (hs : settings.Keeping .soundness) (hσ : σ.Sound .soundness)
    (hτ : τ.Sound .soundness) (h : σ.Alike m τ) (hab : m a b)
    (hround : ∀ l ρ ρ' r r', σ.Turn settings e a ρ r → ρ.Sound .soundness →
      ρ'.Sound .soundness → ρ.Alike l ρ' → l r r' → ρ.store.Single r →
      Matches l (fun l => l) (evaluate settings e r ρ) (evaluate settings e' r' ρ')) :
    Matches m (fun l => l) (evaluate settings e a σ) (evaluate settings e' b τ) := by
  have ha := (h.store.lt hab).1
  rcases hb : σ.store.isBranch a with _ | _
  · exact hround m σ τ a b (Session.turn_of_single hb) hσ hτ h hab ⟨ha, hb⟩
  · rw [evaluate_of_turns hσ hb, evaluate_of_turns hτ ((h.store.isBranch_eq hab).symm.trans hb)]
    refine (matches_collectKept hs (h.store.turns hab) hσ hτ h
      (hσ.store.turns_single ha) hround).bind ?_
    intro l found found' υ ψ _ _ _ halike hfound
    exact .of_alike (Eval.Alike.newBranch hfound) halike

end DocSelect
