import DocSelect.Eval.Select

/-!
# Running actions and evaluations

What an action does to a store, and an evaluation to a session, as equations: one for each way in
which they are put together, and one for each primitive. Proofs about evaluation use these and never
look into the monads.
-/
namespace DocSelect

variable {α β : Type}

namespace Action

/-- The outcome of an action on a store, and the store it leaves. -/
def exec (a : Action α) (s : Store) : Except EvalError α × Store := a.run.run s

@[simp] theorem exec_pure (a : α) (s : Store) : exec (pure a) s = (.ok a, s) := rfl

@[simp] theorem exec_throw (e : EvalError) (s : Store) :
    exec (throw e : Action α) s = (.error e, s) := rfl

@[simp] theorem exec_read (f : Store → α) (s : Store) : (read f).exec s = (.ok (f s), s) := rfl

@[simp] theorem exec_get (s : Store) : exec (MonadState.get : Action Store) s = (.ok s, s) := rfl

@[simp] theorem exec_modifyGet (f : Store → α × Store) (s : Store) :
    exec (modifyGet f : Action α) s = (.ok (f s).1, (f s).2) := rfl

@[simp] theorem exec_refuse (problem : ArgumentProblem) (s : Store) :
    (refuse problem : Action α).exec s = (.error (.invalidArgument problem), s) := rfl

@[simp] theorem exec_new (d : Data) (s : Store) :
    (new d).exec s = (.ok (s.new d).1, (s.new d).2) := rfl

@[simp] theorem exec_build (c : Content) (s : Store) :
    (build c).exec s = (.ok (s.build c).1, (s.build c).2) := rfl

theorem exec_bind (a : Action α) (f : α → Action β) (s : Store) :
    (a >>= f).exec s =
      match a.exec s with
      | (.ok r, s) => (f r).exec s
      | (.error e, s) => (.error e, s) := by
  simp only [exec, ExceptT.run_bind, StateT.run_bind]
  rcases h : StateT.run (ExceptT.run a) s with ⟨_ | _, _⟩ <;> rfl

theorem exec_ask (f : Store → Except ValueError α) (s : Store) :
    (ask f).exec s = ((f s).mapError .value, s) := by
  unfold ask
  rw [exec_bind, exec_get]
  dsimp only
  cases f s <;> rfl

end Action

namespace Eval

variable (settings : Settings)

/-- The outcome of an evaluation in a session, and the session it leaves. -/
def exec (x : Eval α) (σ : Session) : Except EvalError α × Session :=
  let passage := ((x.run settings).run).run σ
  (passage.result, passage.state)

def Moments (x : Eval α) (σ : Session) (m : Moment Session Sorting) : Prop :=
  (((x.run settings).run).run σ).Passed m

/-- An evaluation passes a session if it sets it on the way; the one that it starts from is not
among them, and the one that it leaves is if it has changed anything. -/
abbrev Passes (x : Eval α) (σ τ : Session) : Prop := Moments settings x σ τ

abbrev Sorts (x : Eval α) (σ : Session) (sort : Sorting) : Prop :=
  Moments settings x σ (.note sort)

@[simp] theorem exec_pure (a : α) (σ : Session) : exec settings (pure a) σ = (.ok a, σ) := rfl

@[simp] theorem exec_throw (e : EvalError) (σ : Session) :
    exec settings (throw e : Eval α) σ = (.error e, σ) := rfl

@[simp] theorem exec_read (f : Store → α) (σ : Session) :
    exec settings (read f) σ = (.ok (f σ.store), σ) := rfl

@[simp] theorem exec_get (σ : Session) :
    exec settings (get : Eval Session) σ = (.ok σ, σ) := rfl

@[simp] theorem exec_settings (σ : Session) :
    exec settings (MonadReader.read : Eval Settings) σ = (.ok settings, σ) := rfl

@[simp] theorem exec_noteSort (keys : List Ref) (σ : Session) :
    exec settings (noteSort keys) σ = (.ok (), σ) := rfl

@[simp] theorem exec_change (f : Store → Store) (σ : Session) :
    exec settings (change f) σ = (.ok (), { σ with store := f σ.store }) := rfl

theorem exec_bind (x : Eval α) (f : α → Eval β) (σ : Session) :
    exec settings (x >>= f) σ =
      match exec settings x σ with
      | (.ok r, σ) => exec settings (f r) σ
      | (.error e, σ) => (.error e, σ) := by
  simp only [exec, ReaderT.run_bind, ExceptT.run_bind, Walk.run_bind]
  rcases (((x.run settings).run).run σ).result with _ | _ <;> rfl

variable {settings} in
theorem exec_bind_eq_ok_iff {x : Eval α} {f : α → Eval β} {σ τ : Session} {b : β} :
    exec settings (x >>= f) σ = (.ok b, τ) ↔
      ∃ a υ, exec settings x σ = (.ok a, υ) ∧ exec settings (f a) υ = (.ok b, τ) := by
  rw [exec_bind]
  rcases exec settings x σ with ⟨e | a, υ⟩
  · simp
  · exact ⟨fun h => ⟨a, υ, rfl, h⟩, by rintro ⟨_, _, ⟨⟩, h⟩; exact h⟩

theorem run_tryCatch (x : Eval α) (handle : EvalError → Eval α) :
    ((tryCatch x handle).run settings).run =
      (x.run settings).run >>= fun
        | .ok r => pure (.ok r)
        | .error e => ((handle e).run settings).run := by
  show ExceptT.run (tryCatch (x.run settings) fun e => (handle e).run settings) = _
  rw [ExceptT.run_tryCatch]
  exact bind_congr fun r => by cases r <;> rfl

theorem exec_tryCatch (x : Eval α) (handle : EvalError → Eval α) (σ : Session) :
    exec settings (tryCatch x handle) σ =
      match exec settings x σ with
      | (.ok r, σ) => (.ok r, σ)
      | (.error e, σ) => exec settings (handle e) σ := by
  rw [exec, run_tryCatch, Walk.run_bind, exec]
  rcases (((x.run settings).run).run σ).result with _ | _ <;> rfl

theorem exec_ask (f : Store → Except ValueError α) (σ : Session) :
    exec settings (ask f) σ = ((f σ.store).mapError .value, σ) := by
  unfold ask
  rw [exec_bind, exec_get]
  dsimp only
  cases f σ.store <;> rfl

theorem exec_act (a : Action α) (σ : Session) :
    exec settings (act a) σ = ((a.exec σ.store).1, { σ with store := (a.exec σ.store).2 }) := by
  unfold act
  rw [exec_bind, exec_get]
  have hrun : a.run.run σ.store = a.exec σ.store := rfl
  dsimp only
  rw [hrun]
  rcases a.exec σ.store with ⟨_ | _, s⟩ <;> rfl

@[simp] theorem exec_new (d : Data) (σ : Session) :
    exec settings (new d) σ = (.ok (σ.store.new d).1, { σ with store := (σ.store.new d).2 }) :=
  rfl

-- ---------------------------------------------------------------------------
-- What an evaluation passes
-- ---------------------------------------------------------------------------

variable {m : Moment Session Sorting}

@[simp] theorem moments_pure (a : α) (σ : Session) : ¬ Moments settings (pure a) σ m := id

@[simp] theorem moments_throw (e : EvalError) (σ : Session) :
    ¬ Moments settings (throw e : Eval α) σ m := id

theorem moments_modifyGet (f : Session → α × Session) (σ : Session) :
    Moments settings (modifyGet f : Eval α) σ m ↔ m = (f σ).2 := by
  show (m = .state (f σ).2 ∨ False) ↔ m = .state (f σ).2
  rw [or_false]

theorem moments_bind (x : Eval α) (f : α → Eval β) (σ : Session) :
    Moments settings (x >>= f) σ m ↔ Moments settings x σ m ∨
      ∃ r υ, exec settings x σ = (.ok r, υ) ∧ Moments settings (f r) υ m := by
  simp only [Moments, exec, ReaderT.run_bind, ExceptT.run_bind, Walk.run_bind]
  rcases (((x.run settings).run).run σ).result with e | r
  · simp [Walk.run_pure]
  · simp [and_assoc]

theorem moments_tryCatch (x : Eval α) (handle : EvalError → Eval α) (σ : Session) :
    Moments settings (tryCatch x handle) σ m ↔ Moments settings x σ m ∨
      ∃ e υ, exec settings x σ = (.error e, υ) ∧ Moments settings (handle e) υ m := by
  simp only [Moments, exec, run_tryCatch, Walk.run_bind]
  rcases (((x.run settings).run).run σ).result with e | r
  · simp [and_assoc]
  · simp [Walk.run_pure]

theorem moments_get (σ : Session) : ¬ Moments settings (get : Eval Session) σ m :=
  fun h => h.elim id id

theorem moments_settings (σ : Session) :
    ¬ Moments settings (MonadReader.read : Eval Settings) σ m := id

theorem moments_read (f : Store → α) (σ : Session) : ¬ Moments settings (read f) σ m := by
  unfold read
  rw [moments_bind]
  rintro (h | ⟨_, _, -, h⟩)
  · exact moments_get settings σ h
  · exact h

theorem moments_ask (f : Store → Except ValueError α) (σ : Session) :
    ¬ Moments settings (ask f) σ m := by
  unfold ask
  rw [moments_bind]
  rintro (h | ⟨τ, υ, -, h⟩)
  · exact moments_get settings σ h
  · split at h
    · exact h
    · exact h

theorem moments_act (a : Action α) (σ : Session) :
    Moments settings (act a) σ m ↔ m = .state { σ with store := (a.exec σ.store).2 } := by
  have hset (υ : Session) : Moments settings (set υ : Eval PUnit) σ m ↔ m = .state υ := by
    show (m = .state υ ∨ False) ↔ m = .state υ
    rw [or_false]
  -- what follows the change only hands over the outcome
  have hlast (υ : Session) : ¬ Moments settings (match (a.exec σ.store).1 with
      | .ok r => pure r
      | .error e => throw e) υ m := by
    split <;> exact id
  unfold act
  rw [moments_bind]
  constructor
  · rintro (h | ⟨_, _, hget, h⟩)
    · exact absurd h (moments_get settings σ)
    · cases hget
      rcases (moments_bind ..).1 h with h | ⟨_, υ, -, h⟩
      · exact (hset _).1 h
      · exact absurd h (hlast υ)
  · rintro rfl
    exact .inr ⟨σ, σ, rfl, (moments_bind ..).2 (.inl ((hset _).2 rfl))⟩

theorem moments_new (d : Data) (σ : Session) :
    Moments settings (new d) σ m ↔ m = .state { σ with store := (σ.store.new d).2 } :=
  moments_act ..

theorem moments_change (f : Store → Store) (σ : Session) :
    Moments settings (change f) σ m ↔ m = .state { σ with store := f σ.store } :=
  moments_modifyGet ..

theorem moments_noteSort (keys : List Ref) (σ : Session) :
    Moments settings (noteSort keys) σ m ↔ m = .note ⟨σ.store, keys⟩ := by
  unfold noteSort
  rw [moments_bind]
  constructor
  · rintro (h | ⟨_, _, hget, h⟩)
    · exact absurd h (moments_get settings σ)
    · cases hget
      exact h.elim id False.elim
  · exact fun h => .inr ⟨σ, σ, rfl, .inl h⟩

end Eval

-- ---------------------------------------------------------------------------
-- Expressions
-- ---------------------------------------------------------------------------

theorem evaluate_eq_exec (settings : Settings) (e : Expr) (subject : Ref) (σ : Session) :
    evaluate settings e subject σ = (e.step subject).exec settings σ := rfl

theorem Expr.denoteAll_eq_map (es : List Expr) : denoteAll es = es.map step := by
  induction es with
  | nil => rfl
  | cons e es ih => rw [denoteAll, ih, List.map_cons, step]

theorem chain_append (fs gs : List Step) (r : Ref) :
    Step.chain (fs ++ gs) r = Step.chain fs r >>= Step.chain gs := by
  induction fs generalizing r with
  | nil => simp [Step.chain]
  | cons f fs ih => simp [Step.chain, ih]

/-- A new slice of these nodes as the result, and the session that it is new in. -/
def Session.newSlice (σ : Session) (items : List Ref) : Except EvalError Ref × Session :=
  (.ok (σ.store.new (.slice items)).1, { σ with store := (σ.store.new (.slice items)).2 })

theorem exec_elements_eq_ok_iff {settings : Settings} {σ τ : Session} {r : Ref} {items : List Ref}
    {iteration : Iteration} :
    (Step.elements iteration r).exec settings σ = (.ok items, τ) ↔
    σ.store.data r = .slice items ∧ σ = τ := by
  rw [Step.elements, Eval.exec_bind, Eval.exec_read]
  dsimp only
  cases σ.store.data r <;> simp

section
variable {settings : Settings} {σ τ : Session} {r c : Ref} (e : Expr)

theorem exec_within (f : Step) (node : String) :
    (Step.within node f r).exec settings σ =
      match (f r).exec settings σ with
      | (.ok c, τ) => (.ok c, τ)
      | (.error x, τ) => (.error (.within node x), τ) := by
  rw [Step.within, Eval.exec_tryCatch]
  rcases (f r).exec settings σ with ⟨_ | _, _⟩ <;> rfl

theorem evaluate_eq_within (h : σ.store.isBranch r = false) :
    evaluate settings e r σ = (Step.within e.kindName e.denote r).exec settings σ := by
  rw [evaluate_eq_exec, Expr.step, Expr.lift, Step.broadcast, Eval.exec_bind, Eval.exec_read]
  simp only [h, Bool.false_eq_true, if_false]

theorem evaluate_of_not_branch (h : σ.store.isBranch r = false) :
    evaluate settings e r σ =
      match (e.denote r).exec settings σ with
      | (.ok c, τ) => (.ok c, τ)
      | (.error x, τ) => (.error (.within e.kindName x), τ) := by
  rw [evaluate_eq_within e h, exec_within]

variable {e} in
/-- Saying in which expression an error arose does nothing besides, and neither does looking at the
subject. -/
theorem moments_step {m : Moment Session Sorting} (h : σ.store.isBranch r = false) :
    Eval.Moments settings (e.step r) σ m ↔ Eval.Moments settings (e.denote r) σ m := by
  have hwithin : Eval.Moments settings (Step.within e.kindName e.denote r) σ m ↔
      Eval.Moments settings (e.denote r) σ m := by
    simp [Step.within, Eval.moments_tryCatch]
  rw [← hwithin, Expr.step, Expr.lift, Step.broadcast, Eval.moments_bind]
  simp [Eval.moments_read, h]

theorem evaluate_ok (h : σ.store.isBranch r = false)
    (he : (e.denote r).exec settings σ = (.ok c, τ)) :
    evaluate settings e r σ = (.ok c, τ) := by
  rw [evaluate_of_not_branch e h, he]

theorem evaluate_eq_ok_iff (h : σ.store.isBranch r = false) :
    evaluate settings e r σ = (.ok c, τ) ↔ (e.denote r).exec settings σ = (.ok c, τ) := by
  rw [evaluate_of_not_branch e h]
  rcases (e.denote r).exec settings σ with ⟨_ | _, _⟩ <;> simp

theorem evaluate_of_branch (h : σ.store.isBranch r = true) :
    evaluate settings e r σ =
      (do let items ← Eval.ask (·.items? r)
          Eval.newBranch (← Step.collectKept (Step.within e.kindName e.denote) items)).exec
        settings σ := by
  rw [evaluate_eq_exec, Expr.step, Expr.lift, Step.broadcast, Eval.exec_bind, Eval.exec_read]
  simp only [h, if_true]

end

end DocSelect
