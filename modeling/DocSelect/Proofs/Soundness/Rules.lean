import DocSelect.Proofs.Effects.Basic
import DocSelect.Proofs.Soundness.Copy

/-!
# Rules for sound evaluation

`Eval.Runs` says what a run from a session does whatever the limit of searches: all sessions that it
passes, the stores that it sorts in and the session that it leaves are sound, no node that was there
becomes a branch or a spread, and a result is as wanted. Where it is asked for, the run also comes
to an end: from some limit on, its outcome is always the same one, and no search gives up.

There is one rule for each way in which evaluations are put together, and one for each primitive.
-/
namespace DocSelect

/-- A sound store that has the values of all variables. -/
structure Session.Sound (w : Concern) (σ : Session) : Prop where
  store : σ.store.Sound w
  bindings {r : Ref} : r ∈ σ.bindings.values → σ.store.Known r

def Settings.upTo (settings : Settings) (limit : Nat) : Settings :=
  { settings with searchLimit := limit }

/-- Whether an error comes from a search that went too deep. -/
def EvalError.gaveUp (e : EvalError) : Bool :=
  match e.rootCause with
  | searchTooDeep _ => true
  | _ => false

theorem Session.Sound.change {w : Concern} {σ : Session} (h : σ.Sound w) {s : Store}
    (hs : s.Sound w) (hon : σ.store.Onward s) : Session.Sound w { σ with store := s } :=
  ⟨hs, fun hr => hon.known (h.bindings hr)⟩

/-- A session that has been set is sound, and so is a store in which keys are compared. -/
def Moment.Sound (w : Concern) : Moment Session Sorting → Prop
  | state τ => τ.Sound w
  | note sort => sort.store.Sound w

theorem Session.Sound.of_settled {w : Concern} {σ : Session} (h : σ.Sound .soundness)
    (hs : w = .spreads → σ.store.Settled) : σ.Sound w :=
  ⟨⟨h.store.part_known, h.store.grounded, h.store.flat, hs⟩, h.bindings⟩

variable {α β : Type} {w : Concern} {settings : Settings} {σ τ : Session}

structure Action.Keeps (w : Concern) (a : Action α) (s : Store) (Q : α → Store → Prop) :
    Prop where
  left : (a.exec s).2.Sound w
  onward : s.Onward (a.exec s).2
  result (r : α) : (a.exec s).1 = .ok r → Q r (a.exec s).2
  error (e : EvalError) : (a.exec s).1 = .error e → e.gaveUp = false

namespace Eval

structure Outcome (w : Concern) (settings : Settings) (x : Eval α) (σ : Session)
    (Q : α → Session → Prop) : Prop where
  passed (m : Moment Session Sorting) : x.Moments settings σ m → m.Sound w
  left : (x.exec settings σ).2.Sound w
  onward : σ.store.Onward (x.exec settings σ).2.store
  result (r : α) : (x.exec settings σ).1 = .ok r → Q r (x.exec settings σ).2

/-- A run under fixed settings is as it should be. Where spreads are the concern, this is said about
runs in which no branch ever holds one. -/
def Keeps (w : Concern) (settings : Settings) (x : Eval α) (σ : Session)
    (Q : α → Session → Prop) : Prop :=
  (w = .spreads → ∀ τ, x.Passes settings σ τ → τ.store.Calm) → Outcome w settings x σ Q

/-- From some number on, a family of evaluations has one outcome, with as high a limit for searches,
and this is not that a search gives up. -/
def Ends (settings : Settings) (x : Nat → Eval α) (σ : Session) : Prop :=
  ∃ n result τ, (∀ e, result = .error e → e.gaveUp = false) ∧
    ∀ limit levels, n ≤ limit → n ≤ levels →
      (x levels).exec (settings.upTo limit) σ = (result, τ)

structure Runs (w : Concern) (settings : Settings) (x : Eval α) (σ : Session)
    (Q : α → Session → Prop) : Prop where
  keeps (limit : Nat) : x.Keeps w (settings.upTo limit) σ Q
  ends : w = .ending → Ends settings (fun _ => x) σ

variable {Q : α → Session → Prop} {Q' : β → Session → Prop} {x : Eval α}
  {f : α → Eval β}

-- ---------------------------------------------------------------------------
-- Fixed settings
-- ---------------------------------------------------------------------------

theorem Outcome.of_exec {result : Except EvalError α} (h : x.exec settings σ = (result, τ))
    (passed : ∀ m, x.Moments settings σ m → m.Sound w) (left : τ.Sound w)
    (onward : σ.store.Onward τ.store) (hQ : ∀ r, result = .ok r → Q r τ) :
    Outcome w settings x σ Q := by
  refine ⟨passed, ?_, ?_, ?_⟩ <;> rw [h]
  · exact left
  · exact onward
  · exact hQ

namespace Keeps

theorem pure {a : α} (hσ : σ.Sound w) (hQ : Q a σ) : Keeps w settings (pure a) σ Q :=
  fun _ => .of_exec rfl (fun _ h => absurd h (moments_pure settings a σ)) hσ (.refl _)
    fun _ h => by cases h; exact hQ

theorem throw (hσ : σ.Sound w) (e : EvalError) : Keeps w settings (throw e : Eval α) σ Q :=
  fun _ => .of_exec rfl (fun _ h => absurd h (moments_throw settings e σ)) hσ (.refl _)
    fun _ h => by cases h

theorem bind (hx : x.Keeps w settings σ Q)
    (hf : ∀ r τ, x.exec settings σ = (.ok r, τ) → τ.Sound w →
      σ.store.Onward τ.store → Q r τ →
      (f r).Keeps w settings τ Q') : (x >>= f).Keeps w settings σ Q' := by
  intro hcalm
  have hx := hx fun hw τ h => hcalm hw τ ((moments_bind settings x f σ).2 (.inl h))
  have hexec := exec_bind settings x f σ
  obtain ⟨hpassed, hleft, hon, hresult⟩ := hx
  rcases h : x.exec settings σ with ⟨e | r, τ⟩ <;> rw [h] at hexec hleft hon hresult
  · refine .of_exec hexec (fun υ hυ => ?_) hleft hon fun _ h => by cases h
    rcases (moments_bind settings x f σ).1 hυ with hυ | ⟨r, _, h', -⟩
    · exact hpassed υ hυ
    · rw [h] at h'
      cases h'
  · have hf := hf r τ h hleft hon (hresult r rfl) fun hw υ hυ =>
      hcalm hw υ ((moments_bind settings x f σ).2 (.inr ⟨r, τ, h, hυ⟩))
    refine .of_exec hexec (fun υ hυ => ?_) hf.left (hon.trans hf.onward) hf.result
    rcases (moments_bind settings x f σ).1 hυ with hυ | ⟨r, _, h', hυ⟩
    · exact hpassed υ hυ
    · rw [h] at h'
      cases h'
      exact hf.passed υ hυ

theorem tryCatch {handle : EvalError → Eval α} (hx : x.Keeps w settings σ Q)
    (hf : ∀ e τ, x.exec settings σ = (.error e, τ) → τ.Sound w →
      σ.store.Onward τ.store →
      (handle e).Keeps w settings τ Q) : (tryCatch x handle).Keeps w settings σ Q := by
  intro hcalm
  have hx := hx fun hw τ h => hcalm hw τ ((moments_tryCatch settings x handle σ).2 (.inl h))
  have hexec := exec_tryCatch settings x handle σ
  obtain ⟨hpassed, hleft, hon, hresult⟩ := hx
  rcases h : x.exec settings σ with ⟨e | r, τ⟩ <;> rw [h] at hexec hleft hon hresult
  · have hf := hf e τ h hleft hon fun hw υ hυ =>
      hcalm hw υ ((moments_tryCatch settings x handle σ).2 (.inr ⟨e, τ, h, hυ⟩))
    refine .of_exec hexec (fun υ hυ => ?_) hf.left (hon.trans hf.onward) hf.result
    rcases (moments_tryCatch settings x handle σ).1 hυ with hυ | ⟨e, _, h', hυ⟩
    · exact hpassed υ hυ
    · rw [h] at h'
      cases h'
      exact hf.passed υ hυ
  · refine .of_exec hexec (fun υ hυ => ?_) hleft hon hresult
    rcases (moments_tryCatch settings x handle σ).1 hυ with hυ | ⟨_, _, h', -⟩
    · exact hpassed υ hυ
    · rw [h] at h'
      cases h'

theorem modifyGet {f : Session → α × Session} (hf : (f σ).2.Sound w)
    (hon : σ.store.Onward (f σ).2.store) (hQ : Q (f σ).1 (f σ).2) :
    Keeps w settings (modifyGet f : Eval α) σ Q :=
  fun _ => .of_exec rfl (fun _ h => by rw [(moments_modifyGet settings f σ).1 h]; exact hf) hf hon
    fun _ h => by cases h; exact hQ

theorem reading (hσ : σ.Sound w) {result : Except EvalError α}
    (hexec : x.exec settings σ = (result, σ)) (hpasses : ∀ m, ¬ x.Moments settings σ m) :
    x.Keeps w settings σ fun r τ => result = .ok r ∧ τ = σ :=
  fun _ => .of_exec hexec (fun τ h => absurd h (hpasses τ)) hσ (.refl _) fun _ h => ⟨h, rfl⟩

theorem read (hσ : σ.Sound w) {g : Store → α} (hf : (f (g σ.store)).Keeps w settings σ Q') :
    (Eval.read g >>= f).Keeps w settings σ Q' := by
  refine (reading hσ (exec_read settings g σ) fun _ => moments_read settings g σ).bind ?_
  rintro r τ - - - ⟨h, rfl⟩
  cases h
  exact hf

theorem readSettings (hσ : σ.Sound w) {f : Settings → Eval β}
    (hf : (f settings).Keeps w settings σ Q') :
    (MonadReader.read >>= f).Keeps w settings σ Q' := by
  refine (reading hσ (exec_settings settings σ) fun _ => moments_settings settings σ).bind ?_
  rintro r τ - - - ⟨h, rfl⟩
  cases h
  exact hf

end Keeps

-- ---------------------------------------------------------------------------
-- Coming to an end
-- ---------------------------------------------------------------------------

namespace Ends

variable {x : Nat → Eval α} {f : Nat → α → Eval β}

theorem of_exec {result : Except EvalError α} (h : ∀ limit levels,
    (x levels).exec (settings.upTo limit) σ = (result, τ))
    (he : ∀ e, result = .error e → e.gaveUp = false) : Ends settings x σ :=
  ⟨0, result, τ, he, fun limit levels _ _ => h limit levels⟩

theorem bind (hx : Ends settings x σ)
    (hf : ∀ r τ, (∃ limit levels, (x levels).exec (settings.upTo limit) σ = (.ok r, τ)) →
      Ends settings (fun levels => f levels r) τ) :
    Ends settings (fun levels => x levels >>= f levels) σ := by
  obtain ⟨n, result, τ, he, h⟩ := hx
  cases result with
  | error e =>
    refine ⟨n, .error e, τ, fun _ h => by cases h; exact he e rfl,
      fun limit levels hl hn => ?_⟩
    rw [exec_bind, h limit levels hl hn]
  | ok r =>
    obtain ⟨m, result', υ, he', h'⟩ :=
      hf r τ ⟨n, n, h n n (Nat.le_refl n) (Nat.le_refl n)⟩
    refine ⟨max n m, result', υ, he', fun limit levels hl hn => ?_⟩
    rw [exec_bind, h limit levels (by omega) (by omega)]
    exact h' limit levels (by omega) (by omega)

theorem tryCatch {handle : EvalError → Eval α} (hx : Ends settings x σ)
    (hf : ∀ e τ, e.gaveUp = false →
      (∃ limit levels, (x levels).exec (settings.upTo limit) σ = (.error e, τ)) →
      Ends settings (fun _ => handle e) τ) :
    Ends settings (fun levels => tryCatch (x levels) handle) σ := by
  obtain ⟨n, result, τ, he, h⟩ := hx
  cases result with
  | ok r =>
    refine ⟨n, .ok r, τ, he, fun limit levels hl hn => ?_⟩
    rw [exec_tryCatch, h limit levels hl hn]
  | error e =>
    obtain ⟨m, result', υ, he', h'⟩ :=
      hf e τ (he e rfl) ⟨n, n, h n n (Nat.le_refl n) (Nat.le_refl n)⟩
    refine ⟨max n m, result', υ, he', fun limit levels hl hn => ?_⟩
    rw [exec_tryCatch, h limit levels (by omega) (by omega)]
    exact h' limit levels (by omega) (by omega)

end Ends

-- ---------------------------------------------------------------------------
-- Runs
-- ---------------------------------------------------------------------------

namespace Runs

theorem pure {a : α} (hσ : σ.Sound w) (hQ : Q a σ) : Runs w settings (pure a) σ Q :=
  ⟨fun _ => .pure hσ hQ, fun _ => .of_exec (fun _ _ => rfl) fun _ h => by cases h⟩

theorem throw (hσ : σ.Sound w) {e : EvalError} (he : w = .ending → e.gaveUp = false) :
    Runs w settings (throw e : Eval α) σ Q :=
  ⟨fun _ => .throw hσ e, fun hw => .of_exec (fun _ _ => rfl) fun _ h =>
    by cases h; exact he hw⟩

theorem bind (hx : Runs w settings x σ Q)
    (hf : ∀ r τ, τ.Sound w → σ.store.Onward τ.store → Q r τ →
      Runs w settings (f r) τ Q') : Runs w settings (x >>= f) σ Q' := by
  refine ⟨fun limit => (hx.keeps limit).bind fun r τ _ hτ hon hr =>
    (hf r τ hτ hon hr).keeps limit, fun hw => (hx.ends hw).bind ?_⟩
  rintro r τ ⟨limit, -, h⟩
  have hk := hx.keeps limit fun hw' => absurd (hw.symm.trans hw') (by decide)
  obtain ⟨-, hτ, hon, hr⟩ := hk
  rw [h] at hτ hon hr
  exact (hf r τ hτ hon (hr r rfl)).ends hw

theorem mono {Q' : α → Session → Prop} (h : Runs w settings x σ Q)
    (hQ : ∀ r τ, σ.store.Onward τ.store → Q r τ → Q' r τ) : Runs w settings x σ Q' := by
  refine ⟨fun limit hcalm => ?_, h.ends⟩
  obtain ⟨hpassed, hleft, hon, hresult⟩ := h.keeps limit hcalm
  exact ⟨hpassed, hleft, hon, fun r hr => hQ r _ hon (hresult r hr)⟩

theorem rethrow (hx : Runs w settings x σ Q) {g : EvalError → EvalError}
    (hg : ∀ e, (g e).gaveUp = e.gaveUp) :
    Runs w settings (tryCatch x fun e => MonadExcept.throw (g e)) σ Q := by
  refine ⟨fun limit => (hx.keeps limit).tryCatch fun e τ _ hτ _ => .throw hτ (g e),
    fun hw => (hx.ends hw).tryCatch fun e τ he _ => .of_exec (fun _ _ => rfl) fun e' h => ?_⟩
  cases h
  rw [hg, he]

theorem orMiss (hx : Runs w settings x σ Q) :
    Runs w settings
      (tryCatch (some <$> x) fun e => if e.isMiss then Pure.pure none else MonadExcept.throw e) σ
      fun result τ => ∀ r, result = some r → Q r τ := by
  have hsome : Runs w settings (some <$> x) σ fun result τ => ∀ r, result = some r →
      Q r τ := by
    rw [map_eq_pure_bind]
    exact hx.bind fun r τ hτ _ hr => pure hτ fun _ h => by cases h; exact hr
  refine ⟨fun limit => (hsome.keeps limit).tryCatch fun e τ _ hτ _ => ?_,
    fun hw => (hsome.ends hw).tryCatch fun e τ he _ => ?_⟩
  · split
    · exact .pure hτ fun _ h => by cases h
    · exact .throw hτ e
  · split
    · exact .of_exec (fun _ _ => rfl) fun _ h => by cases h
    · exact .of_exec (fun _ _ => rfl) fun _ h => by cases h; exact he

theorem modifyGet {f : Session → α × Session} (hf : (f σ).2.Sound w)
    (hon : σ.store.Onward (f σ).2.store) (hQ : Q (f σ).1 (f σ).2) :
    Runs w settings (modifyGet f : Eval α) σ Q :=
  ⟨fun _ => .modifyGet hf hon hQ, fun _ => .of_exec (fun _ _ => rfl) fun _ h => by cases h⟩

theorem change {f : Store → Store} {Q : Unit → Session → Prop} (hσ : σ.Sound w)
    (hf : (f σ.store).Sound w) (hon : σ.store.Onward (f σ.store))
    (hQ : Q () { σ with store := f σ.store }) : Runs w settings (change f) σ Q :=
  .modifyGet (hσ.change hf hon) hon hQ

-- ---------------------------------------------------------------------------
-- Reading
-- ---------------------------------------------------------------------------

theorem reading (hσ : σ.Sound w) {result : Except EvalError α}
    (hexec : ∀ limit, x.exec (settings.upTo limit) σ = (result, σ))
    (hpasses : ∀ limit m, ¬ x.Moments (settings.upTo limit) σ m)
    (he : ∀ e, result = .error e → e.gaveUp = false) :
    Runs w settings x σ fun r τ => result = .ok r ∧ τ = σ :=
  ⟨fun limit => .reading hσ (hexec limit) (hpasses limit),
    fun _ => .of_exec (fun limit _ => hexec limit) he⟩

theorem read (hσ : σ.Sound w) {g : Store → α} (hf : Runs w settings (f (g σ.store)) σ Q') :
    Runs w settings (Eval.read g >>= f) σ Q' := by
  refine (reading hσ (fun _ => rfl) (fun _ _ => moments_read _ g σ) fun _ h => by cases h).bind ?_
  rintro r τ - - ⟨h, rfl⟩
  cases h
  exact hf

theorem noteSort (hσ : σ.Sound w) {keys : List Ref} {f : Unit → Eval β}
    (hf : Runs w settings (f ()) σ Q') : Runs w settings (Eval.noteSort keys >>= f) σ Q' := by
  have hkeep (limit : Nat) :
      (Eval.noteSort keys).Keeps w (settings.upTo limit) σ fun _ τ => τ = σ := fun _ =>
    .of_exec rfl (fun _ h => by rw [(moments_noteSort _ keys σ).1 h]; exact hσ.store)
      hσ (.refl _) fun _ _ => rfl
  have hnote : Runs w settings (Eval.noteSort keys) σ fun _ τ => τ = σ :=
    ⟨hkeep, fun _ => .of_exec (fun _ _ => exec_noteSort _ keys σ) fun _ h => by cases h⟩
  exact hnote.bind fun _ _ _ _ heq => heq ▸ hf

theorem get (hσ : σ.Sound w) {f : Session → Eval β} (hf : Runs w settings (f σ) σ Q') :
    Runs w settings (MonadState.get >>= f) σ Q' := by
  refine (reading hσ (fun _ => rfl) (fun _ _ => moments_get _ σ) fun _ h => by cases h).bind ?_
  rintro r τ - - ⟨h, rfl⟩
  cases h
  exact hf

theorem ask (hσ : σ.Sound w) (g : Store → Except ValueError α) :
    Runs w settings (ask g) σ fun r τ => g σ.store = .ok r ∧ τ = σ := by
  refine (reading hσ (fun _ => exec_ask _ g σ) (fun _ _ => moments_ask _ g σ) ?_).mono ?_
  · intro e h
    cases hg : g σ.store with
    | ok => rw [hg] at h; cases h
    | error => rw [hg] at h; cases h; rfl
  · rintro r τ - ⟨h, rfl⟩
    cases hg : g τ.store with
    | ok => rw [hg] at h; cases h; exact ⟨rfl, rfl⟩
    | error => rw [hg] at h; cases h

theorem asking (hσ : σ.Sound w) {g : Store → Except ValueError α}
    (hf : ∀ r, g σ.store = .ok r → Runs w settings (f r) σ Q') :
    Runs w settings (Eval.ask g >>= f) σ Q' :=
  (ask hσ g).bind fun r _ _ _ h => h.2 ▸ hf r h.1

theorem readSettings (hσ : σ.Sound w) {f : Settings → Eval β}
    (hf : Runs w settings (f settings) σ Q')
    (hsame : ∀ limit, f (settings.upTo limit) = f settings) :
    Runs w settings (MonadReader.read >>= f) σ Q' := by
  refine ⟨fun limit => .readSettings hσ (hsame limit ▸ hf.keeps limit), fun hw => ?_⟩
  obtain ⟨n, result, τ, he, h⟩ := hf.ends hw
  refine ⟨n, result, τ, he, fun limit levels hl hn => ?_⟩
  rw [exec_bind, exec_settings, ← h limit levels hl hn, ← hsame limit]

theorem act (hσ : σ.Sound w) {a : Action α} {Q : α → Store → Prop}
    (ha : a.Keeps w σ.store Q) : Runs w settings (act a) σ fun r τ => Q r τ.store := by
  have hleft := hσ.change ha.left ha.onward
  refine ⟨fun limit _ => .of_exec (exec_act _ a σ) (fun τ hτ => ?_) hleft ha.onward ha.result,
    fun _ => .of_exec (fun _ _ => exec_act _ a σ) ha.error⟩
  rw [(moments_act _ a σ).1 hτ]
  exact hleft

-- ---------------------------------------------------------------------------
-- New nodes
-- ---------------------------------------------------------------------------

/-- A new node that is marked as soon as it is there. Where spreads are the concern, its parts have
to be fit for a container only if no branch holds a spread afterwards. -/
theorem newMarked (hσ : σ.Sound w) {d : Data} {g : Marks → Marks}
    (hfit : (w = .spreads → (σ.store.add ⟨d, g Marks.none⟩).2.Calm) →
      ∀ c ∈ d.children, σ.store.Fit w c)
    (hbranch : (g Marks.none).branch = true →
      ∃ items, d = .slice items ∧ ∀ c ∈ items, σ.store.isBranch c = false) :
    Runs w settings (do let r ← Eval.new d; Eval.change (·.mark r g); return r) σ
      fun r τ => τ.store.Known r := by
  have hmark := σ.store.mark_add_self ⟨d, Marks.none⟩ g
  have hpasses (limit : Nat) (m : Moment Session Sorting) :
      (do let r ← Eval.new d; Eval.change (·.mark r g); return r : Eval Ref).Moments
        (settings.upTo limit) σ m ↔ m = .state { σ with store := (σ.store.new d).2 } ∨
          m = .state { σ with store := (σ.store.add ⟨d, g Marks.none⟩).2 } := by
    simp only [moments_bind, moments_new, moments_change, moments_pure, exec_new, Prod.mk.injEq,
      Except.ok.injEq, and_false, exists_false, or_false]
    constructor
    · rintro (h | ⟨_, _, ⟨rfl, rfl⟩, rfl⟩)
      · exact .inl h
      · exact .inr (congrArg (fun s => Moment.state (Session.mk s σ.bindings)) hmark)
    · rintro (h | rfl)
      · exact .inl h
      · exact .inr ⟨_, _, ⟨rfl, rfl⟩,
          (congrArg (fun s => Moment.state (Session.mk s σ.bindings)) hmark).symm⟩
  have hexec (limit : Nat) :
      (do let r ← Eval.new d; Eval.change (·.mark r g); return r : Eval Ref).exec
        (settings.upTo limit) σ = (.ok (σ.store.new d).1,
          { σ with store := (σ.store.add ⟨d, g Marks.none⟩).2 }) := by
    rw [← hmark]
    rfl
  refine ⟨fun limit hcalm => ?_, fun _ =>
    .of_exec (fun limit _ => hexec limit) fun _ h => by cases h⟩
  have hfit := hfit fun hw => hcalm hw _ ((hpasses limit _).2 (.inr rfl))
  have hleft :=
    hσ.change (hσ.store.add (n := ⟨d, g Marks.none⟩) hfit hbranch) (σ.store.onward_add _)
  refine .of_exec (hexec limit) (fun τ hτ => ?_) hleft (σ.store.onward_add _) fun r hr => ?_
  · rcases (hpasses limit τ).1 hτ with rfl | rfl
    · exact hσ.change (hσ.store.new hfit) (σ.store.onward_add _)
    · exact hleft
  · cases hr
    exact σ.store.known_add_self _

theorem new (hσ : σ.Sound w) {d : Data} (hfit : ∀ c ∈ d.children, σ.store.Fit w c) :
    Runs w settings (Eval.new d) σ fun r τ => τ.store.Known r := by
  refine act hσ (Q := fun r s => s.Known r) ⟨hσ.store.new hfit, σ.store.onward_add _, ?_, ?_⟩
  · intro r hr
    cases hr
    exact σ.store.known_add_self _
  · intro e he
    cases he

theorem scalar (hσ : σ.Sound w) (a : Scalar) :
    Runs w settings (Eval.new (.scalar a)) σ fun r τ => τ.store.Known r :=
  new hσ fun _ hc => absurd hc List.not_mem_nil

/-- A branch can be made of nodes that are none. Whether one of them is a spread shows in the
branch. -/
theorem newBranch (hσ : σ.Sound w) {items : List Ref}
    (hitems : ∀ c ∈ items, σ.store.Single c) :
    Runs w settings (newBranch items) σ fun r τ => τ.store.Known r := by
  refine newMarked (d := .slice items) (g := fun m => { m with branch := true }) hσ
    (fun hcalm c hc => ?_) fun _ => ⟨items, rfl, fun c hc => (hitems c hc).not_branch⟩
  have hknown := (hitems c hc).known
  refine ⟨hknown, fun hw => ?_⟩
  let n : Node := ⟨.slice items, { Marks.none with branch := true }⟩
  have hself : (σ.store.add n).2.node (σ.store.add n).1 = n := σ.store.node_add_self n
  have hspread := hcalm hw (σ.store.add n).1 c (by rw [Store.isBranch, Store.marks, hself])
    (by rw [Store.Part, Store.data, hself]; exact hc)
  rwa [Store.isSpread, Store.marks_add_of_known _ hknown] at hspread

theorem clearSpread (hσ : σ.Sound w) {r : Ref} (hr : σ.store.Known r) :
    Runs w settings (Eval.change (·.clearSpread r)) σ fun _ τ => τ.store.Fit w r := by
  have hon := σ.store.onward_clearSpread r
  exact .change hσ (hσ.store.clearSpread r) hon
    ⟨hon.known hr, fun _ => σ.store.isSpread_clearSpread r⟩

theorem newSpread (hσ : σ.Sound w) {items : List Ref}
    (hitems : ∀ c ∈ items, σ.store.Fit w c) :
    Runs w settings
      (do let r ← Eval.new (.slice items)
          Eval.change (·.markSpread r)
          return r) σ
      fun r τ => τ.store.Known r :=
  newMarked (d := .slice items) (g := fun m => { m with spread := true }) hσ (fun _ => hitems)
    fun hb => absurd hb Bool.false_ne_true

end Runs

end Eval

end DocSelect
