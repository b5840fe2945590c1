import DocSelect.Proofs.Reachable

/-!
# One node after the other

An expression on a branch is evaluated on one element after the other, each time on a node that is
no branch. What holds of each of these turns holds of the whole: a failure is that of some turn, and
each element that is collected comes from the result of one.
-/
namespace DocSelect

/-- The nodes that an expression on this subject is evaluated on; also those that a result
contributes to a branch. -/
def Store.turns (s : Store) (subject : Ref) : List Ref :=
  if s.isBranch subject then (s.data subject).children else [subject]

inductive Session.Reaching (settings : Settings) (e : Expr) :
    Session → List Ref → Session → Ref → Prop
  | here (σ : Session) (r : Ref) (rest : List Ref) : Reaching settings e σ (r :: rest) σ r
  | later {σ τ ρ : Session} {r c q : Ref} {rest : List Ref} : evaluate settings e r σ =
    (.ok q, τ) → Reaching settings e τ rest ρ c → Reaching settings e σ (r :: rest) ρ c

/-- An evaluation on this subject comes to a session and a node. -/
def Session.Turn (settings : Settings) (e : Expr) (σ : Session) (subject : Ref) (ρ : Session)
    (r : Ref) : Prop :=
  Reaching settings e σ (σ.store.turns subject) ρ r

variable {settings : Settings} {σ τ ρ : Session} {e : Expr} {subject r b c : Ref}
  {items : List Ref} {w : Concern} {s : Store}

namespace Store

theorem turns_of_not_branch (h : s.isBranch r = false) : s.turns r = [r] := by
  rw [turns, h]
  rfl

theorem turns_of_isBranch (h : s.isBranch r = true) : s.turns r = (s.data r).children := if_pos h

theorem Sound.flatten_eq_turns (h : s.Sound w) : s.flatten r = .ok (s.turns r) := h.flatten_eq

theorem Sound.turns_single (h : s.Sound w) (hr : s.Known r) : ∀ c ∈ s.turns r, s.Single c :=
  h.flatten_single hr h.flatten_eq

theorem Sound.items?_of_isBranch (h : s.Sound w) (hb : s.isBranch r = true) :
    s.items? r = .ok (s.turns r) := by
  obtain ⟨items, hd, -⟩ := h.flat r hb
  rw [turns_of_isBranch hb, items?, hd, Data.children]

end Store

theorem evaluate_of_toOption (h : (evaluate settings e r σ).1.toOption = some b) :
    evaluate settings e r σ = (.ok b, (evaluate settings e r σ).2) := by
  rcases hrun : evaluate settings e r σ with ⟨x | q, τ⟩ <;> rw [hrun] at h <;> cases h
  rfl

theorem evaluate_of_toOption_eq_none (h : (evaluate settings e r σ).1.toOption = none) :
    ∃ x, evaluate settings e r σ = (.error x, (evaluate settings e r σ).2) := by
  rcases hrun : evaluate settings e r σ with ⟨x | q, τ⟩ <;> rw [hrun] at h
  · exact ⟨x, rfl⟩
  · cases h

theorem Session.Sound.after (hs : settings.Keeping .soundness) (hσ : σ.Sound .soundness)
    (hr : σ.store.Known r) {result : Except EvalError Ref}
    (h : evaluate settings e r σ = (result, τ)) :
    τ.Sound .soundness ∧ σ.store.Onward τ.store ∧ ∀ q, result = .ok q →
    τ.store.Known q := by
  obtain ⟨-, hτ, hon, hresult⟩ := hσ.outcome hs e hr
  rw [← evaluate_eq_exec, h] at hτ hon hresult
  exact ⟨hτ, hon, fun q => hresult q⟩

theorem Session.turn_of_single (h : σ.store.isBranch r = false) : σ.Turn settings e r σ r := by
  rw [Turn, Store.turns_of_not_branch h]
  exact .here σ r []

theorem Session.Turn.eq_of_single (h : σ.Turn settings e subject ρ r)
    (hsub : σ.store.isBranch subject = false) : ρ = σ ∧ r = subject := by
  rw [Turn, Store.turns_of_not_branch hsub] at h
  cases h with
  | here => exact ⟨rfl, rfl⟩
  | later _ h => cases h

/-- Sessions that are reached are sound, and their nodes are there and are no branches. -/
theorem Session.Reaching.sound (hs : settings.Keeping .soundness)
    (h : Session.Reaching settings e σ items ρ r) (hσ : σ.Sound .soundness)
    (hitems : ∀ c ∈ items, σ.store.Single c) :
    ρ.Sound .soundness ∧ σ.store.Onward ρ.store ∧ ρ.store.Single r := by
  induction h with
  | here σ r rest => exact ⟨hσ, .refl _, hitems r List.mem_cons_self⟩
  | @later σ τ ρ r c q rest heq _ ih =>
    obtain ⟨hτ, hon, -⟩ := hσ.after hs (hitems r List.mem_cons_self).known heq
    obtain ⟨hρ, hon', hc⟩ :=
      ih hτ fun d hd => hon.single (hitems d (List.mem_cons_of_mem _ hd))
    exact ⟨hρ, hon.trans hon', hc⟩

theorem Session.Turn.sound (hs : settings.Keeping .soundness) (h : σ.Turn settings e subject ρ r)
    (hσ : σ.Sound .soundness) (hsub : σ.store.Known subject) :
    ρ.Sound .soundness ∧ σ.store.Onward ρ.store ∧ ρ.store.Single r :=
  Reaching.sound hs h hσ (hσ.store.turns_single hsub)

-- ---------------------------------------------------------------------------
-- Loops
-- ---------------------------------------------------------------------------

theorem exec_collectKept_cons (f : Step) (rest : List Ref) :
    (Step.collectKept f (r :: rest)).exec settings σ =
      match (f r).exec settings σ with
      | (.error x, τ) => (.error x, τ)
      | (.ok q, τ) =>
        if τ.store.isIgnored q then (Step.collectKept f rest).exec settings τ
        else
          match τ.store.flatten q with
          | .error x => (.error (.value x), τ)
          | .ok taken =>
            match (Step.collectKept f rest).exec settings τ with
            | (.error x, υ) => (.error x, υ)
            | (.ok others, υ) => (.ok (taken ++ others), υ) := by
  rw [Step.collectKept, Eval.exec_bind]
  rcases (f r).exec settings σ with ⟨x | q, τ⟩
  · rfl
  · dsimp only
    rw [Eval.exec_bind, Eval.exec_read]
    dsimp only
    split
    · rfl
    · rw [Eval.exec_bind, Eval.exec_ask]
      cases τ.store.flatten q with
      | error x => rfl
      | ok taken =>
        dsimp only [Except.mapError]
        rw [Eval.exec_bind]
        rcases (Step.collectKept f rest).exec settings τ with ⟨x | others, υ⟩ <;> rfl

/-- A round over elements in a sound session, where it is an evaluation on a node that is no
branch. -/
theorem exec_collectKept_turn (hs : settings.Keeping .soundness) (hσ : σ.Sound .soundness)
    (hr : σ.store.Single r) (rest : List Ref) :
    (Step.collectKept (Step.within e.kindName e.denote) (r :: rest)).exec settings σ =
      match evaluate settings e r σ with
      | (.error x, τ) => (.error x, τ)
      | (.ok q, τ) =>
        match (Step.collectKept (Step.within e.kindName e.denote) rest).exec settings τ with
        | (.error x, υ) => (.error x, υ)
        | (.ok others, υ) =>
          (.ok (if τ.store.isIgnored q then others else τ.store.turns q ++ others), υ) := by
  rw [exec_collectKept_cons, ← evaluate_eq_within e hr.not_branch]
  rcases heval : evaluate settings e r σ with ⟨x | q, τ⟩
  · rfl
  · obtain ⟨hτ, -, -⟩ := hσ.after hs hr.known heval
    dsimp only
    rw [hτ.store.flatten_eq_turns]
    rcases (Step.collectKept (Step.within e.kindName e.denote) rest).exec settings τ with
      ⟨x | others, υ⟩ <;> cases τ.store.isIgnored q <;> rfl

theorem evaluate_of_turns (hσ : σ.Sound w) (hb : σ.store.isBranch subject = true) :
    evaluate settings e subject σ =
      (do Eval.newBranch
            (← Step.collectKept (Step.within e.kindName e.denote) (σ.store.turns subject))).exec
        settings σ := by
  rw [evaluate_of_branch e hb, Eval.exec_bind, Eval.exec_ask, hσ.store.items?_of_isBranch hb]
  rfl

-- ---------------------------------------------------------------------------
-- Failures and results
-- ---------------------------------------------------------------------------

theorem Session.Reaching.of_error (hs : settings.Keeping .soundness) {x : EvalError}
    (hσ : σ.Sound .soundness) (hitems : ∀ c ∈ items, σ.store.Single c)
    (h : (Step.collectKept (Step.within e.kindName e.denote) items).exec settings σ =
      (.error x, τ)) :
    ∃ ρ r, Session.Reaching settings e σ items ρ r ∧
      evaluate settings e r ρ = (.error x, τ) := by
  induction items generalizing σ with
  | nil => cases h
  | cons r rest ih =>
    have hr := hitems r List.mem_cons_self
    rw [exec_collectKept_turn hs hσ hr] at h
    rcases heval : evaluate settings e r σ with ⟨y | q, υ⟩ <;>
      rw [heval] at h <;> dsimp only at h
    · cases h
      exact ⟨σ, r, .here σ r rest, heval⟩
    · obtain ⟨hυ, hon, -⟩ := hσ.after hs hr.known heval
      have hrest : (Step.collectKept (Step.within e.kindName e.denote) rest).exec settings υ =
          (.error x, τ) := by
        rcases hloop : (Step.collectKept (Step.within e.kindName e.denote) rest).exec
          settings υ with ⟨y | others, ψ⟩ <;> rw [hloop] at h <;> cases h
        rfl
      obtain ⟨ρ, c, hreach, hfail⟩ := ih hυ
        (fun d hd => hon.single (hitems d (List.mem_cons_of_mem _ hd))) hrest
      exact ⟨ρ, c, .later heval hreach, hfail⟩

theorem Session.Turn.of_error (hs : settings.Keeping .soundness) {x : EvalError}
    (hσ : σ.Sound .soundness) (hsub : σ.store.Known subject)
    (h : evaluate settings e subject σ = (.error x, τ)) :
    ∃ ρ r, σ.Turn settings e subject ρ r ∧ evaluate settings e r ρ = (.error x, τ) := by
  rcases hb : σ.store.isBranch subject with _ | _
  · exact ⟨σ, subject, turn_of_single hb, h⟩
  · rw [evaluate_of_turns hσ hb, Eval.exec_bind] at h
    refine Reaching.of_error hs hσ (hσ.store.turns_single hsub) ?_
    rcases hloop : (Step.collectKept (Step.within e.kindName e.denote)
      (σ.store.turns subject)).exec
      settings σ with ⟨y | found, υ⟩ <;> rw [hloop] at h <;> dsimp only at h
    · cases h
      rfl
    · rw [Eval.exec_newBranch] at h
      cases h

theorem Session.Reaching.of_ok (hs : settings.Keeping .soundness) {found : List Ref}
    (h : Session.Reaching settings e σ items ρ r) (hσ : σ.Sound .soundness)
    (hitems : ∀ c ∈ items, σ.store.Single c)
    (hloop : (Step.collectKept (Step.within e.kindName e.denote) items).exec settings σ =
      (.ok found, τ)) : ∃ q υ, evaluate settings e r ρ = (.ok q, υ) := by
  induction h generalizing found with
  | here σ r rest =>
    rw [exec_collectKept_turn hs hσ (hitems r List.mem_cons_self)] at hloop
    rcases heval : evaluate settings e r σ with ⟨x | q, υ⟩ <;> rw [heval] at hloop
    · cases hloop
    · exact ⟨q, υ, rfl⟩
  | @later σ υ ρ r c q rest heval _ ih =>
    have hr := hitems r List.mem_cons_self
    obtain ⟨hυ, hon, -⟩ := hσ.after hs hr.known heval
    rw [exec_collectKept_turn hs hσ hr, heval] at hloop
    dsimp only at hloop
    rcases hrest : (Step.collectKept (Step.within e.kindName e.denote) rest).exec settings υ with
      ⟨x | others, ψ⟩ <;> rw [hrest] at hloop <;> cases hloop
    exact ih hυ (fun d hd => hon.single (hitems d (List.mem_cons_of_mem _ hd))) hrest

theorem Session.Turn.of_ok (hs : settings.Keeping .soundness)
    (hturn : σ.Turn settings e subject ρ r) (hσ : σ.Sound .soundness)
    (hsub : σ.store.Known subject) (h : evaluate settings e subject σ = (.ok b, τ)) :
    ∃ q υ, evaluate settings e r ρ = (.ok q, υ) := by
  rcases hb : σ.store.isBranch subject with _ | _
  · obtain ⟨rfl, rfl⟩ := hturn.eq_of_single hb
    exact ⟨b, τ, h⟩
  · rw [evaluate_of_turns hσ hb] at h
    obtain ⟨found, υ, hloop, -⟩ := Eval.exec_bind_eq_ok_iff.1 h
    exact Reaching.of_ok hs hturn hσ (hσ.store.turns_single hsub) hloop

theorem evaluate_ok_iff_turns (hs : settings.Keeping .soundness) (hσ : σ.Sound .soundness)
    (hsub : σ.store.Known subject) : (∃ q τ, evaluate settings e subject σ = (.ok q, τ)) ↔
      ∀ ρ r, σ.Turn settings e subject ρ r →
        ∃ q υ, evaluate settings e r ρ = (.ok q, υ) := by
  refine ⟨fun ⟨_, _, h⟩ ρ r hturn => hturn.of_ok hs hσ hsub h, fun hturns => ?_⟩
  rcases heval : evaluate settings e subject σ with ⟨x | q, τ⟩
  · obtain ⟨ρ, r, hturn, hfail⟩ := Session.Turn.of_error hs hσ hsub heval
    obtain ⟨q, υ, hok⟩ := hturns ρ r hturn
    cases hfail.symm.trans hok
  · exact ⟨q, τ, rfl⟩

theorem exec_collectKept_congr {e' : Expr} (hs : settings.Keeping .soundness)
    (hσ : σ.Sound .soundness) (hitems : ∀ c ∈ items, σ.store.Single c)
    (h : ∀ ρ r, Session.Reaching settings e σ items ρ r →
      evaluate settings e' r ρ = evaluate settings e r ρ) :
    (Step.collectKept (Step.within e'.kindName e'.denote) items).exec settings σ =
      (Step.collectKept (Step.within e.kindName e.denote) items).exec settings σ := by
  induction items generalizing σ with
  | nil => rfl
  | cons r rest ih =>
    have hr := hitems r List.mem_cons_self
    rw [exec_collectKept_turn hs hσ hr, exec_collectKept_turn hs hσ hr, h σ r (.here σ r rest)]
    rcases heval : evaluate settings e r σ with ⟨x | q, υ⟩
    · rfl
    · obtain ⟨hυ, hon, -⟩ := hσ.after hs hr.known heval
      dsimp only
      rw [ih hυ (fun d hd => hon.single (hitems d (List.mem_cons_of_mem _ hd)))
        fun ρ c hreach => h ρ c (.later heval hreach)]

theorem evaluate_congr_of_turns {e' : Expr} (hs : settings.Keeping .soundness)
    (hσ : σ.Sound .soundness) (hsub : σ.store.Known subject)
    (h : ∀ ρ r, σ.Turn settings e subject ρ r →
      evaluate settings e' r ρ = evaluate settings e r ρ) :
    evaluate settings e' subject σ = evaluate settings e subject σ := by
  rcases hb : σ.store.isBranch subject with _ | _
  · exact h σ subject (Session.turn_of_single hb)
  · rw [evaluate_of_turns hσ hb, evaluate_of_turns hσ hb, Eval.exec_bind, Eval.exec_bind,
      exec_collectKept_congr hs hσ (hσ.store.turns_single hsub) h]

/-- A node that a turn contributes: the turn's result, or an element of it, which is not ignored
then. -/
def Session.Contributes (settings : Settings) (e : Expr) (ρ : Session) (r c : Ref) : Prop :=
  ∃ q υ, evaluate settings e r ρ = (.ok q, υ) ∧ υ.store.isIgnored q = false ∧
    c ∈ υ.store.turns q

theorem Session.Reaching.of_mem (hs : settings.Keeping .soundness) {found : List Ref}
    (hσ : σ.Sound .soundness) (hitems : ∀ c ∈ items, σ.store.Single c)
    (h : (Step.collectKept (Step.within e.kindName e.denote) items).exec settings σ =
      (.ok found, τ)) (hc : c ∈ found) :
    ∃ ρ r, Session.Reaching settings e σ items ρ r ∧ ρ.Contributes settings e r c := by
  induction items generalizing σ found with
  | nil =>
    cases h
    exact absurd hc List.not_mem_nil
  | cons r rest ih =>
    have hr := hitems r List.mem_cons_self
    rw [exec_collectKept_turn hs hσ hr] at h
    rcases heval : evaluate settings e r σ with ⟨y | q, υ⟩ <;>
      rw [heval] at h <;> dsimp only at h
    · cases h
    obtain ⟨hυ, hon, -⟩ := hσ.after hs hr.known heval
    rcases hloop : (Step.collectKept (Step.within e.kindName e.denote) rest).exec settings υ with
      ⟨y | others, ψ⟩ <;> rw [hloop] at h <;> cases h
    have hlater (hc : c ∈ others) :
        ∃ ρ r', Session.Reaching settings e σ (r :: rest) ρ r' ∧
          ρ.Contributes settings e r' c := by
      obtain ⟨ρ, r', hreach, hfrom⟩ := ih hυ
        (fun d hd => hon.single (hitems d (List.mem_cons_of_mem _ hd))) hloop hc
      exact ⟨ρ, r', .later heval hreach, hfrom⟩
    cases hignored : υ.store.isIgnored q
    · simp only [hignored, Bool.false_eq_true, if_false] at hc
      rcases List.mem_append.1 hc with hc | hc
      · exact ⟨σ, r, .here σ r rest, q, υ, heval, hignored, hc⟩
      · exact hlater hc
    · simp only [hignored, if_true] at hc
      exact hlater hc

theorem Session.Turn.of_mem (hs : settings.Keeping .soundness) (hσ : σ.Sound .soundness)
    (hsub : σ.store.Known subject) (hb : σ.store.isBranch subject = true)
    (h : evaluate settings e subject σ = (.ok b, τ)) (hc : c ∈ (τ.store.data b).children) :
    ∃ ρ r, σ.Turn settings e subject ρ r ∧ ρ.Contributes settings e r c := by
  rw [evaluate_of_turns hσ hb] at h
  obtain ⟨found, υ, hloop, hnew⟩ := Eval.exec_bind_eq_ok_iff.1 h
  rw [Eval.exec_newBranch] at hnew
  cases hnew
  rw [Store.data, Store.node_add_self] at hc
  exact Reaching.of_mem hs hσ (hσ.store.turns_single hsub) hloop hc

end DocSelect
