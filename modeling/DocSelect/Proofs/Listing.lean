import DocSelect.Proofs.Effects.Basic
import DocSelect.Proofs.Reachable

/-!
# Lists of results

An array, a branch and a call list the results of several expressions, each with a loop of its own.
All three take spreads apart, and branches. Only the loop of a call does not look into a spread for
branches: where a spread has one, the function gets it as a single argument, while it would
contribute its elements to an array or a branch. There is no other difference.
-/
namespace DocSelect

variable {settings : Settings} {σ τ : Session} {s : Store} {r subject : Ref} {w : Concern}

/-- A session that a program has between two operations, or that evaluation passes on the way. -/
inductive Session.Met (settings : Settings) : Session → Prop
  | reachable {σ : Session} : σ.Reachable settings → Met settings σ
  | passed {σ τ : Session} {e : Expr} {subject : Ref} {bindings : Dict Ref} :
    σ.Reachable settings → σ.store.Known subject →
    bindings = σ.bindings ∨ bindings = Dict.empty →
    (e.step subject).Passes settings ⟨σ.store, bindings⟩ τ → Met settings τ

theorem Session.Met.sound (hs : settings.Keeping .soundness) (h : σ.Met settings) :
    σ.Sound .soundness := by
  cases h with
  | reachable h => exact h.sound hs
  | passed h hsub hbindings hpasses =>
    rcases hbindings with rfl | rfl
    · exact ((h.sound hs).outcome hs _ hsub).passed _ hpasses
    · exact ((h.sound hs).store.withoutVariables.outcome hs _ hsub).passed _ hpasses

-- ---------------------------------------------------------------------------
-- One result
-- ---------------------------------------------------------------------------

def Store.unbranched (s : Store) (refs : List Ref) : List Ref :=
  refs.flatMap fun r => if s.isBranch r then (s.data r).children else [r]

theorem Store.unbranched_of_not_branch {refs : List Ref}
    (h : ∀ r ∈ refs, s.isBranch r = false) : s.unbranched refs = refs := by
  have hsingle : ∀ r ∈ refs, (if s.isBranch r then (s.data r).children else [r]) = [r] :=
    fun r hr => by simp [h r hr]
  rw [unbranched, List.flatMap_congr hsingle, List.flatMap_singleton']

theorem Store.Sound.contribution_eq (h : s.Sound w) :
    s.contribution r = (s.passed r).map s.unbranched := by
  have hflatten : s.flatten = fun r => .ok (if s.isBranch r then (s.data r).children else [r]) :=
    funext fun _ => h.flatten_eq
  unfold contribution passed
  cases hspread : s.isSpread r
  · cases hb : s.isBranch r
    · simp [hflatten, hb, unbranched, Except.map]
    · obtain ⟨items, hd, hitems⟩ := h.flat r hb
      simp [hflatten, hb, items?, hd, unbranched_of_not_branch hitems, Data.children, Except.map]
  · cases hitems : s.items? r with
    | error e => rfl
    | ok items =>
      have hmap := List.mapM_pure (m := Except ValueError) (l := items)
        (f := fun r => if s.isBranch r then (s.data r).children else [r])
      simp only [pure, Except.pure] at hmap
      simp [hflatten, hmap, unbranched, List.flatMap_def, Except.map, bind, Except.bind,
        pure, Except.pure]

-- ---------------------------------------------------------------------------
-- Several results
-- ---------------------------------------------------------------------------

namespace Step

theorem exec_gather_cons (take : Store → Ref → Except ValueError (List Ref)) (f : Step)
    (rest : List Step) :
    (gather take (f :: rest) subject).exec settings σ =
      match (f subject).exec settings σ with
      | (.error e, τ) => (.error e, τ)
      | (.ok result, τ) =>
        match take τ.store result with
        | .error e => (.error (.value e), τ)
        | .ok taken =>
          match (gather take rest subject).exec settings τ with
          | (.error e, υ) => (.error e, υ)
          | (.ok others, υ) => (.ok (taken ++ others), υ) := by
  rw [gather, Eval.exec_bind]
  rcases (f subject).exec settings σ with ⟨e | result, τ⟩
  · rfl
  · dsimp only
    rw [Eval.exec_bind, Eval.exec_ask]
    cases take τ.store result with
    | error e => rfl
    | ok taken =>
      dsimp only [Except.mapError]
      rw [Eval.exec_bind]
      rcases (gather take rest subject).exec settings τ with ⟨e | others, υ⟩ <;> rfl

/-- Both ways of taking results fail alike, or take the same nodes unless a branch is passed on
whole. -/
theorem gather_agrees {steps : List Step} (hs : ∀ f ∈ steps, Runs .soundness settings f)
    (hσ : σ.Sound .soundness) (hsub : σ.store.Known subject) :
    (∃ e τ, (gather Store.contribution steps subject).exec settings σ = (.error e, τ) ∧
      (gather Store.passed steps subject).exec settings σ = (.error e, τ)) ∨
    ∃ items args τ, (gather Store.contribution steps subject).exec settings σ =
      (.ok items, τ) ∧ (gather Store.passed steps subject).exec settings σ = (.ok args, τ) ∧
      σ.store.Onward τ.store ∧
      ((∀ r ∈ args, τ.store.isBranch r = false) → items = args) := by
  induction steps generalizing σ with
  | nil => exact .inr ⟨[], [], σ, rfl, rfl, .refl _, fun _ => rfl⟩
  | cons f rest ih =>
    obtain ⟨-, hτ, hon, hresult⟩ : Eval.Outcome .soundness settings (f subject) σ
        fun r τ => τ.store.Known r :=
      (hs f List.mem_cons_self subject σ hσ hsub).keeps settings.searchLimit
        fun hw => absurd hw (by decide)
    rw [exec_gather_cons, exec_gather_cons]
    rcases hrun : (f subject).exec settings σ with ⟨e | result, τ⟩ <;>
      simp only [hrun] at hτ hon hresult ⊢
    · exact .inl ⟨e, τ, rfl, rfl⟩
    rw [hτ.store.contribution_eq]
    rcases htaken : τ.store.passed result with e | taken <;> simp only [Except.map]
    · exact .inl ⟨.value e, τ, rfl, rfl⟩
    rcases ih (fun g hg => hs g (List.mem_cons_of_mem _ hg)) hτ (hon.known hsub) with
      ⟨e, υ, hitems, hargs⟩ | ⟨items, args, υ, hitems, hargs, hon', heq⟩ <;>
      simp only [hitems, hargs]
    · exact .inl ⟨e, υ, rfl, rfl⟩
    refine .inr ⟨_, _, υ, rfl, rfl, hon.trans hon', fun hnot => ?_⟩
    -- what was taken first was no branch already then
    have hfirst : ∀ r ∈ taken, τ.store.isBranch r = false := fun r hr => by
      have hknown := Runs.passed_known _ _ _ hτ.store (hresult result rfl) htaken r hr
      rw [← hon'.branch hknown]
      exact hnot r (List.mem_append_left _ hr)
    rw [Store.unbranched_of_not_branch hfirst, heq fun r hr => hnot r (List.mem_append_right _ hr)]

end Step

-- ---------------------------------------------------------------------------
-- Arrays, branches and calls
-- ---------------------------------------------------------------------------

def Function.apply (f : Function) (name : String) (arguments : List Ref) : Step := fun subject =>
  tryCatch (Eval.act (f.call subject arguments)) fun e => throw (.inFunction name e)

variable {es : List Expr} {name : String} {f : Function}

theorem evaluate_array (h : σ.store.isBranch subject = false) :
    evaluate settings (.array es) subject σ =
      match (Step.gather Store.contribution (es.map Expr.step) subject).exec settings σ with
      | (.error e, τ) => (.error (.within "array" e), τ)
      | (.ok items, τ) => (Eval.new (.slice items)).exec settings τ := by
  rw [evaluate_of_not_branch _ h, Expr.denote, Expr.denoteAll_eq_map, Step.array, Eval.exec_bind]
  rcases (Step.gather Store.contribution (es.map Expr.step) subject).exec settings σ with ⟨_ | _,
    _⟩ <;> rfl

theorem evaluate_branch (h : σ.store.isBranch subject = false) (hes : es ≠ []) :
    evaluate settings (.branch es) subject σ =
      match (Step.gather Store.contribution (es.map Expr.step) subject).exec settings σ with
      | (.error e, τ) => (.error (.within "branch" e), τ)
      | (.ok items, τ) => (Eval.newBranch items).exec settings τ := by
  obtain ⟨e, rest, rfl⟩ := List.exists_cons_of_ne_nil hes
  rw [evaluate_of_not_branch _ h, Expr.denote, Expr.denoteAll_eq_map, List.map_cons, Step.branch,
    Eval.exec_bind]
  · rcases (Step.gather Store.contribution (e.step :: rest.map Expr.step) subject).exec
      settings σ with ⟨_ | _, _⟩ <;> rfl
  · exact List.cons_ne_nil _ _

theorem evaluate_call (h : σ.store.isBranch subject = false)
    (hf : settings.functions.find? name = some f) :
    evaluate settings (.call name es) subject σ =
      match (Step.gather Store.passed (es.map Expr.step) subject).exec settings σ with
      | (.error e, τ) => (.error (.within "call" e), τ)
      | (.ok args, τ) => (Step.within "call" (f.apply name args) subject).exec settings τ := by
  rw [evaluate_of_not_branch _ h, Expr.denote, Expr.denoteAll_eq_map, Step.call, Eval.exec_bind,
    Eval.exec_settings]
  simp only [hf]
  rw [Eval.exec_bind]
  rcases (Step.gather Store.passed (es.map Expr.step) subject).exec settings σ with ⟨_ | _, _⟩
  · rfl
  · dsimp only
    rw [exec_within]
    rfl

/-- On one subject, an array, a branch and a call of the same expressions fail with the same error,
or list the same results: array and branch have the same elements, and they are the arguments that
the function gets just if none of those is a branch. -/
theorem lists_agree (files : FileSystem) (environment : Environment) (limit : Nat)
    (hσ : σ.Met ⟨Registry.builtins files, environment, limit⟩)
    (hsub : σ.store.Single subject) (hes : es ≠ [])
    (hf : (Registry.builtins files).find? name = some f) :
    let settings : Settings := ⟨Registry.builtins files, environment, limit⟩
    (∃ e τ, evaluate settings (.array es) subject σ = (.error (.within "array" e), τ) ∧
      evaluate settings (.branch es) subject σ = (.error (.within "branch" e), τ) ∧
      evaluate settings (.call name es) subject σ = (.error (.within "call" e), τ)) ∨
    ∃ items args τ,
      evaluate settings (.array es) subject σ =
        (Eval.new (.slice items)).exec settings τ ∧
      evaluate settings (.branch es) subject σ = (Eval.newBranch items).exec settings τ ∧
      evaluate settings (.call name es) subject σ =
        (Step.within "call" (f.apply name args) subject).exec settings τ ∧
      (items = args ↔ ∀ r ∈ args, τ.store.isBranch r = false) := by
  intro settings
  have hs := Settings.keeping_builtins .soundness files environment limit
  have hsound := hσ.sound hs
  have hsteps : ∀ f ∈ es.map Expr.step, Step.Runs .soundness settings f := fun f hf => by
    obtain ⟨e, -, rfl⟩ := List.mem_map.1 hf
    exact e.runs_lift hs (e.all_of_forall fun _ => rfl)
  have hitems : Eval.Outcome .soundness settings
      (Step.gather Store.contribution (es.map Expr.step) subject) σ
      fun items τ => ∀ r ∈ items, τ.store.Single r ∧ τ.store.Fit .soundness r :=
    (Step.Runs.gatherContributions hsteps hsound hsub.known).keeps limit fun hw =>
      absurd hw (by decide)
  rw [evaluate_array hsub.not_branch, evaluate_branch hsub.not_branch hes,
    evaluate_call hsub.not_branch hf]
  rcases Step.gather_agrees hsteps hsound hsub.known with
    ⟨e, τ, harray, hcall⟩ | ⟨items, args, τ, harray, hcall, -, heq⟩ <;> rw [harray, hcall]
  · exact .inl ⟨e, τ, rfl, rfl, rfl⟩
  · refine .inr ⟨items, args, τ, rfl, rfl, rfl, ?_, heq⟩
    rintro rfl r hr
    have hsingle := hitems.result items (by rw [harray]) r hr
    rw [harray] at hsingle
    exact hsingle.1.not_branch

/-- The elements of a spread and those of a branch, added up with a number. -/
theorem lists_agree_sum :
    let settings : Settings := ⟨Registry.builtins FileSystem.bare, fun _ => none, 10⟩
    let start := Session.start .null []
    let es : List Expr := [.chain [.array [.integer 1, .integer 2], .spread],
      .branch [.integer 3, .integer 4], .integer 5]
    let (sum, σ) := evaluate settings (.call "add" es) start.1 start.2
    sum.toOption.map (Builtin.scalarOf σ.store) = some (.int 15) ∧
      start.2.Met settings ∧ start.2.store.Single start.1 ∧
      ∃ f, settings.functions.find? "add" = some f ∧ ∃ items args τ,
        evaluate settings (.array es) start.1 start.2 =
          (Eval.new (.slice items)).exec settings τ ∧
        evaluate settings (.branch es) start.1 start.2 = (Eval.newBranch items).exec settings τ ∧
        evaluate settings (.call "add" es) start.1 start.2 =
          (Step.within "call" (f.apply "add" args) start.1).exec settings τ ∧
        (items = args ↔ ∀ r ∈ args, τ.store.isBranch r = false) := by
  intro settings start es
  have hσ : start.2.Met settings := .reachable (.start settings _ _)
  have hsub : start.2.store.Single start.1 := ⟨Nat.zero_lt_one, rfl⟩
  obtain ⟨f, hf⟩ := Option.isSome_iff_exists.1
    (show (settings.functions.find? "add").isSome = true by decide)
  refine ⟨by decide +kernel, hσ, hsub, f, hf, ?_⟩
  rcases lists_agree FileSystem.bare (fun _ => none) 10 hσ hsub (List.cons_ne_nil _ _) hf with
    ⟨e, τ, harray, -⟩ | h
  · have hok : (evaluate settings (.array es) start.1 start.2).1.toOption.isSome = true := by
      decide +kernel
    rw [harray] at hok
    cases hok
  · exact h

/-- A spread with a branch gives two elements to an array and to a branch, but one argument to a
call. -/
theorem branch_in_spread_passed :
    let settings : Settings := ⟨Registry.builtins FileSystem.bare, fun _ => none, 10⟩
    let start := Session.start .null []
    let e : Expr := .chain [.array [.integer 1], .map (.branch [.integer 1, .integer 2]), .spread]
    let (array, σ) := evaluate settings (.array [e]) start.1 start.2
    let (branch, τ) := evaluate settings (.branch [e]) start.1 start.2
    (array = .ok ⟨8⟩ ∧ σ.store.data ⟨8⟩ = .slice [⟨3⟩, ⟨4⟩]) ∧
      (branch = .ok ⟨8⟩ ∧ τ.store.data ⟨8⟩ = .slice [⟨3⟩, ⟨4⟩]) ∧
      ((Step.gather Store.passed [e.step] start.1).exec settings start.2).1 = .ok [⟨5⟩] ∧
        (evaluate settings (.call "add" [e]) start.1 start.2).1 =
          .error
            (.within "call" (.inFunction "add" (.invalidArgument (.notNumber "add" .slice)))) := by
  exact ⟨⟨rfl, rfl⟩, ⟨rfl, rfl⟩, rfl, rfl⟩

end DocSelect
