import DocSelect.Proofs.Alike.Change
import DocSelect.Proofs.Execution

/-!
# Running alike

Two evaluations run alike if, begun in alike sessions, they end in alike sessions, with related
results or the same error. The pairing may have grown by the nodes that the two have added. The
rules below say this for the ways in which evaluations are put together, so that nobody looks at a
session again.
-/
namespace DocSelect

structure Session.Alike (m : Pairing) (σ τ : Session) : Prop where
  store : σ.store.Alike m τ.store
  bindings : σ.bindings.Alike m τ.bindings

variable {α β γ δ : Type}

-- ---------------------------------------------------------------------------
-- Actions
-- ---------------------------------------------------------------------------

/-- From stores alike along a pairing, or a larger one, two actions have related outcomes. -/
def Action.Alike (m : Pairing) (R : Pairing → α → β → Prop) (x : Action α)
    (y : Action β) : Prop :=
  ∀ l, m ≤ l → ∀ s t : Store, s.Alike l t →
    Grows l (fun l' => Except.Alike (R l')) (x.exec s) (y.exec t)

namespace Action.Alike

variable {m : Pairing} {R : Pairing → α → β → Prop} {S : Pairing → γ → δ → Prop}

theorem of_exec {x : Action α} {y : Action β} (hx : ∀ s, (x.exec s).2 = s)
    (hy : ∀ t, (y.exec t).2 = t)
    (h : ∀ l, m ≤ l → ∀ s t : Store, s.Alike l t →
      Except.Alike (R l) (x.exec s).1 (y.exec t).1) : Alike m R x y := by
  intro l hl s t hs
  refine ⟨l, le_refl l, ?_, h l hl s t hs⟩
  rwa [hx, hy]

theorem pure {a : α} {b : β} (h : ∀ l, m ≤ l → R l a b) : Alike m R (pure a) (pure b) :=
  of_exec (fun _ => rfl) (fun _ => rfl) fun l hl _ _ _ => .ok (h l hl)

theorem throw (e : EvalError) : Alike m R (throw e : Action α) (throw e : Action β) :=
  of_exec (fun _ => rfl) (fun _ => rfl) fun _ _ _ _ _ => .error e

theorem refuse (problem : ArgumentProblem) :
    Alike m R (refuse problem : Action α) (refuse problem : Action β) := throw _

theorem read {f : Store → α} {g : Store → β}
    (h : ∀ l, m ≤ l → ∀ s t : Store, s.Alike l t → R l (f s) (g t)) :
    Alike m R (read f) (read g) :=
  of_exec (fun _ => rfl) (fun _ => rfl) fun l hl s t hs => .ok (h l hl s t hs)

theorem get : Alike m (fun l s t => s.Alike l t) (MonadState.get : Action Store) MonadState.get :=
  of_exec (fun _ => rfl) (fun _ => rfl) fun _ _ _ _ hs => .ok hs

theorem ask {f : Store → Except ValueError α} {g : Store → Except ValueError β}
    (h : ∀ l, m ≤ l → ∀ s t : Store, s.Alike l t → Except.Alike (R l) (f s) (g t)) :
    Alike m R (ask f) (ask g) := by
  refine of_exec (fun s => ?_) (fun t => ?_) fun l hl s t hs => ?_
  · rw [exec_ask]
  · rw [exec_ask]
  · rw [exec_ask, exec_ask]
    exact (h l hl s t hs).mapError _

theorem modifyGet {f : Store → α × Store} {g : Store → β × Store}
    (h : ∀ l, m ≤ l → ∀ s t : Store, s.Alike l t → Grows l R (f s) (g t)) :
    Alike m R (modifyGet f : Action α) (modifyGet g : Action β) := by
  intro l hl s t hs
  obtain ⟨l', hl', hs', hr⟩ := h l hl s t hs
  exact ⟨l', hl', hs', .ok hr⟩

theorem new {d d' : Data} (h : d.Alike m d') : Alike m (fun l => l) (new d) (new d') :=
  modifyGet fun _ hl _ _ hs => hs.grows_new (h.mono hl)

theorem build (c : Content) : Alike m (fun l => l) (build c) (build c) :=
  modifyGet fun _ _ _ _ hs => Store.Alike.grows_build c hs

theorem bind {x : Action α} {y : Action β} {f : α → Action γ} {g : β → Action δ}
    (h : Alike m R x y) (hf : ∀ l, m ≤ l → ∀ a b, R l a b → Alike l S (f a) (g b)) :
    Alike m S (x >>= f) (y >>= g) := by
  intro l hl s t hs
  obtain ⟨l', hl', hs', hr⟩ := h l hl s t hs
  rw [exec_bind, exec_bind]
  generalize x.exec s = u, y.exec t = v at hs' hr ⊢
  obtain ⟨_ | a, s'⟩ := u <;> obtain ⟨_ | b, t'⟩ := v <;> cases hr
  · exact ⟨l', hl', hs', .error _⟩
  · rename_i hab
    obtain ⟨l'', hl'', hs'', hr⟩ := hf l' (hl.trans hl') a b hab l' (le_refl l') s' t' hs'
    exact ⟨l'', hl'.trans hl'', hs'', hr⟩

theorem bind_eq {x y : Action α} {f : α → Action γ} {g : α → Action δ}
    (h : Alike m (fun _ => Eq) x y) (hf : ∀ l, m ≤ l → ∀ a, Alike l S (f a) (g a)) :
    Alike m S (x >>= f) (y >>= g) :=
  h.bind fun l hl a _ heq => heq ▸ hf l hl a

end Action.Alike

def Function.Respectful (f : Function) : Prop :=
  ∀ (m : Pairing) (a b : Ref) (as bs : List Ref), m a b → List.Forall₂ m as bs →
    Action.Alike m (fun l => l) (f.run a as) (f.run b bs)

theorem Function.Respectful.call {f : Function} (hf : f.Respectful) {m : Pairing} {a b : Ref}
    {as bs : List Ref} (hab : m a b) (has : List.Forall₂ m as bs) :
    Action.Alike m (fun l => l) (f.call a as) (f.call b bs) := by
  unfold Function.call
  rw [has.length_eq]
  split
  · exact hf m a b as bs hab has
  · exact .throw _

-- ---------------------------------------------------------------------------
-- Evaluations
-- ---------------------------------------------------------------------------

/-- From sessions alike along a pairing, or a larger one, two evaluations have related outcomes. -/
def Eval.Alike (settings : Settings) (m : Pairing) (R : Pairing → α → β → Prop)
    (x : Eval α) (y : Eval β) : Prop :=
  ∀ l, m ≤ l → ∀ σ τ : Session, σ.Alike l τ →
    ∃ l', l ≤ l' ∧ (x.exec settings σ).2.Alike l' (y.exec settings τ).2 ∧
      Except.Alike (R l') (x.exec settings σ).1 (y.exec settings τ).1

def Step.Respectful (settings : Settings) (f : Step) : Prop :=
  ∀ (m : Pairing) (a b : Ref), m a b → Eval.Alike settings m (fun l => l) (f a) (f b)

namespace Eval.Alike

variable {settings : Settings} {m : Pairing} {R : Pairing → α → β → Prop}
  {S : Pairing → γ → δ → Prop}

theorem of_exec {x : Eval α} {y : Eval β} (hx : ∀ σ, (x.exec settings σ).2 = σ)
    (hy : ∀ τ, (y.exec settings τ).2 = τ)
    (h : ∀ l, m ≤ l → ∀ σ τ : Session, σ.Alike l τ →
      Except.Alike (R l) (x.exec settings σ).1 (y.exec settings τ).1) :
    Alike settings m R x y := by
  intro l hl σ τ hσ
  refine ⟨l, le_refl l, ?_, h l hl σ τ hσ⟩
  rwa [hx, hy]

theorem pure {a : α} {b : β} (h : ∀ l, m ≤ l → R l a b) :
    Alike settings m R (pure a) (pure b) :=
  of_exec (fun _ => rfl) (fun _ => rfl) fun l hl _ _ _ => .ok (h l hl)

theorem throw (e : EvalError) : Alike settings m R (throw e : Eval α) (throw e : Eval β) :=
  of_exec (fun _ => rfl) (fun _ => rfl) fun _ _ _ _ _ => .error e

theorem read {f : Store → α} {g : Store → β}
    (h : ∀ l, m ≤ l → ∀ s t : Store, s.Alike l t → R l (f s) (g t)) :
    Alike settings m R (read f) (read g) :=
  of_exec (fun _ => rfl) (fun _ => rfl) fun l hl _ _ hσ => .ok (h l hl _ _ hσ.store)

theorem noteSort (xs ys : List Ref) :
    Alike settings m (fun _ _ _ => True) (noteSort xs) (noteSort ys) :=
  of_exec (fun _ => rfl) (fun _ => rfl) fun _ _ _ _ _ => .ok trivial

theorem get : Alike settings m (fun l σ τ => σ.Alike l τ) (get : Eval Session) get :=
  of_exec (fun _ => rfl) (fun _ => rfl) fun _ _ _ _ hσ => .ok hσ

theorem readSettings :
    Alike settings m (fun _ c c' => c = settings ∧ c' = settings)
      (MonadReader.read : Eval Settings) MonadReader.read :=
  of_exec (fun _ => rfl) (fun _ => rfl) fun _ _ _ _ _ => .ok ⟨rfl, rfl⟩

theorem ask {f : Store → Except ValueError α} {g : Store → Except ValueError β}
    (h : ∀ l, m ≤ l → ∀ s t : Store, s.Alike l t → Except.Alike (R l) (f s) (g t)) :
    Alike settings m R (ask f) (ask g) := by
  refine of_exec (fun σ => ?_) (fun τ => ?_) fun l hl σ τ hσ => ?_
  · rw [exec_ask]
  · rw [exec_ask]
  · rw [exec_ask, exec_ask]
    exact (h l hl _ _ hσ.store).mapError _

theorem bind {x : Eval α} {y : Eval β} {f : α → Eval γ} {g : β → Eval δ}
    (h : Alike settings m R x y)
    (hf : ∀ l, m ≤ l → ∀ a b, R l a b → Alike settings l S (f a) (g b)) :
    Alike settings m S (x >>= f) (y >>= g) := by
  intro l hl σ τ hσ
  obtain ⟨l', hl', hσ', hr⟩ := h l hl σ τ hσ
  rw [exec_bind, exec_bind]
  generalize x.exec settings σ = u, y.exec settings τ = v at hσ' hr ⊢
  obtain ⟨_ | a, σ'⟩ := u <;> obtain ⟨_ | b, τ'⟩ := v <;> cases hr
  · exact ⟨l', hl', hσ', .error _⟩
  · rename_i hab
    obtain ⟨l'', hl'', hσ'', hr⟩ := hf l' (hl.trans hl') a b hab l' (le_refl l') σ' τ' hσ'
    exact ⟨l'', hl'.trans hl'', hσ'', hr⟩

theorem bind_eq {x y : Eval α} {f : α → Eval γ} {g : α → Eval δ}
    (h : Alike settings m (fun _ => Eq) x y)
    (hf : ∀ l, m ≤ l → ∀ a, Alike settings l S (f a) (g a)) :
    Alike settings m S (x >>= f) (y >>= g) :=
  h.bind fun l hl a _ heq => heq ▸ hf l hl a

theorem tryCatch {x : Eval α} {y : Eval β} {f : EvalError → Eval α} {g : EvalError → Eval β}
    (h : Alike settings m R x y)
    (hf : ∀ l, m ≤ l → ∀ e, Alike settings l R (f e) (g e)) :
    Alike settings m R (tryCatch x f) (tryCatch y g) := by
  intro l hl σ τ hσ
  obtain ⟨l', hl', hσ', hr⟩ := h l hl σ τ hσ
  rw [exec_tryCatch, exec_tryCatch]
  generalize x.exec settings σ = u, y.exec settings τ = v at hσ' hr ⊢
  obtain ⟨e | a, σ'⟩ := u <;> obtain ⟨_ | b, τ'⟩ := v <;> cases hr
  · obtain ⟨l'', hl'', hσ'', hr⟩ := hf l' (hl.trans hl') e l' (le_refl l') σ' τ' hσ'
    exact ⟨l'', hl'.trans hl'', hσ'', hr⟩
  · rename_i hab
    exact ⟨l', hl', hσ', .ok hab⟩

theorem act {x : Action α} {y : Action β} (h : Action.Alike m R x y) :
    Alike settings m R (act x) (act y) := by
  intro l hl σ τ hσ
  obtain ⟨l', hl', hs, hr⟩ := h l hl _ _ hσ.store
  rw [exec_act, exec_act]
  exact ⟨l', hl', ⟨hs, hσ.bindings.mono hl'⟩, hr⟩

theorem new {d d' : Data} (h : d.Alike m d') : Alike settings m (fun l => l) (new d) (new d') :=
  act (.new h)

theorem change {f g : Store → Store}
    (h : ∀ l, m ≤ l → ∀ s t : Store, s.Alike l t →
      ∃ l', l ≤ l' ∧ Store.Alike l' (f s) (g t)) :
    Alike settings m (fun _ _ _ => True) (change f) (change g) := by
  intro l hl σ τ hσ
  obtain ⟨l', hl', hs⟩ := h l hl _ _ hσ.store
  exact ⟨l', hl', ⟨hs, hσ.bindings.mono hl'⟩, .ok trivial⟩

theorem newBranch {xs ys : List Ref} (h : List.Forall₂ m xs ys) :
    Alike settings m (fun l => l) (newBranch xs) (newBranch ys) :=
  (new (.slice h)).bind fun _ _ _ _ hab =>
    (change fun _ hl _ _ hs => ⟨_, le_refl _,
      hs.markBranch (hl _ _ hab)⟩).bind fun _ hl _ _ _ =>
      pure fun _ hl' => hl' _ _ (hl _ _ hab)

end Eval.Alike

end DocSelect
