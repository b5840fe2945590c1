import DocSelect.Eval.Calls
import DocSelect.Proofs.Broadcast.Agreement
import DocSelect.Proofs.Effects.Evaluation
import DocSelect.Proofs.Soundness.Copy
import DocSelect.Proofs.Wrapping.Basic

/-!
# Falling back

A fallback takes the outcome of its left side, or gives it up for the right side where there is
nothing: a null, or an error whose cause is that something was not found, however many expressions
and functions it came through. It is associative. Each of three operands is evaluated in the session
that the one before it left, and only if that one has been given up.

The subject has to stay what it is meanwhile, so the functions of the host must not mark nodes of
the store as branches. No built-in one does. With one that does, it matters how the operands are put
together.
-/
namespace DocSelect

-- ---------------------------------------------------------------------------
-- Errors that something is absent
-- ---------------------------------------------------------------------------

namespace EvalError

inductive Absence : EvalError → Prop where
  | key (key : String) : Absence (.value (.keyNotFound key))
  | index (index : Int64) (length : Nat) : Absence (.value (.indexOutOfRange index length))
  | kind (expected actual : Kind) : Absence (.value (.unexpectedKind expected actual))
  | kinds (left right : Kind) : Absence (.value (.incompatibleKinds left right))
  | variable (name : String) : Absence (.undefinedVariable name)

theorem Absence.isMiss {x : EvalError} (h : x.Absence) : x.isMiss = true := by
  cases h <;> rfl

theorem absence_rootCause {x : EvalError} (h : x.isMiss = true) : x.rootCause.Absence := by
  unfold EvalError.isMiss at h
  split at h
  · rename_i e hcause
    rw [hcause]
    cases e with
    | divisionByZero | integerOverflow => cases h
    | _ => constructor
  · rename_i name hcause
    rw [hcause]
    exact .variable name
  · cases h

theorem isMiss_around (wrappers : List Wrapper) (x : EvalError) :
    (wrappers.foldr Wrapper.around x).isMiss = x.isMiss := by
  induction wrappers with
  | nil => rfl
  | cons w ws ih => cases w <;> exact ih

theorem isMiss_iff {x : EvalError} : x.isMiss = true ↔
    ∃ (wrappers : List Wrapper) (cause : EvalError),
      x = wrappers.foldr Wrapper.around cause ∧ cause.Absence := by
  constructor
  · exact fun h => ⟨x.wrappers, x.rootCause, x.foldr_wrappers.symm, absence_rootCause h⟩
  · rintro ⟨wrappers, cause, rfl, h⟩
    rw [isMiss_around]
    exact h.isMiss

theorem isMiss_congr {x y : EvalError} (h : x.rootCause = y.rootCause) : x.isMiss = y.isMiss := by
  rw [isMiss, isMiss, h]

end EvalError

-- ---------------------------------------------------------------------------
-- What is given up
-- ---------------------------------------------------------------------------

variable {settings : Settings} {σ τ : Session} {r q : Ref} {e a b c left right : Expr}
  {x y : Except EvalError Ref × Session} {f g : Step}

/-- There is nothing in the outcome: it is a null, or an error that something is absent, in
whichever wrappers. -/
def Lacking : Except EvalError Ref × Session → Prop
  | (.ok q, τ) => τ.store.isNull q = true
  | (.error x, _) => ∃ (wrappers : List Wrapper) (cause : EvalError),
    x = wrappers.foldr Wrapper.around cause ∧ cause.Absence

def Unbranched (x : Except EvalError Ref × Session) : Prop :=
  ∀ q τ, x = (.ok q, τ) → τ.store.isBranch q = false

def fallback (settings : Settings) (right : Step) (r : Ref) :
    Except EvalError Ref × Session → Except EvalError Ref × Session
  | (.ok a, τ) =>
    if τ.store.isBranch a then
      Eval.exec settings (do
        let items ← Eval.ask (·.items? a)
        let orElse (item : Ref) : Eval Ref := do
          if (← Eval.read (·.isNull item)) then right item else return item
        Eval.newBranch (← Step.collect orElse items)) τ
    else if τ.store.isNull a then (right r).exec settings τ
    else (.ok a, τ)
  | (.error x, τ) => if x.isMiss then (right r).exec settings τ else (.error x, τ)

theorem exec_coalesce :
    (Step.coalesce f g r).exec settings σ = fallback settings g r ((f r).exec settings σ) := by
  rw [Step.coalesce, Eval.exec_bind, Eval.exec_tryCatch, map_eq_pure_bind, Eval.exec_bind]
  rcases (f r).exec settings σ with ⟨x | a, τ⟩
  · dsimp only [fallback]
    cases x.isMiss <;> rfl
  · dsimp only [fallback]
    rw [Eval.exec_pure]
    dsimp only
    rw [Eval.exec_bind, Eval.exec_read]
    dsimp only
    split
    · rfl
    · rw [Eval.exec_bind, Eval.exec_read]
      dsimp only
      split <;> rfl

theorem fallback_of_lacking (h : Lacking x) (hx : Unbranched x) :
    fallback settings g r x = (g r).exec settings x.2 := by
  obtain ⟨z | q, τ⟩ := x
  · exact if_pos (EvalError.isMiss_iff.2 h)
  · rw [fallback, hx q τ rfl, if_neg Bool.false_ne_true]
    exact if_pos h

theorem fallback_of_not_lacking (h : ¬ Lacking x) (hx : Unbranched x) :
    fallback settings g r x = x := by
  obtain ⟨z | q, τ⟩ := x
  · exact if_neg fun hmiss => h (EvalError.isMiss_iff.1 hmiss)
  · rw [fallback, hx q τ rfl, if_neg Bool.false_ne_true]
    exact if_neg h

namespace Agree

theorem fallback (h : Agree x y) (g : Step) (r : Ref) :
    Agree (fallback settings g r x) (fallback settings g r y) := by
  rcases h.cases_result with ⟨q, τ, rfl, rfl⟩ | ⟨z, z', τ, rfl, rfl, hcause⟩
  · exact refl _
  · rw [DocSelect.fallback, DocSelect.fallback, EvalError.isMiss_congr hcause]
    split
    · exact refl _
    · exact ⟨congrArg Except.error hcause, rfl⟩

theorem lacking (h : Agree x y) (hx : Lacking x) : Lacking y := by
  rcases h.cases_result with ⟨q, τ, rfl, rfl⟩ | ⟨z, z', τ, rfl, rfl, hcause⟩
  · exact hx
  · refine EvalError.isMiss_iff.1 ?_
    rw [← EvalError.isMiss_congr hcause]
    exact EvalError.isMiss_iff.2 hx

theorem unbranched (h : Agree x y) (hx : Unbranched x) : Unbranched y := by
  rcases h.cases_result with ⟨q, τ, rfl, rfl⟩ | ⟨z, z', τ, rfl, rfl, -⟩
  · exact hx
  · rintro _ _ ⟨⟩

end Agree

def Expr.ungrouped : Expr → Expr
  | group inner => inner.ungrouped
  | e => e

/-- On a subject that is no branch, groups make no difference but in what an error is wrapped in. -/
theorem agree_ungrouped (h : σ.store.isBranch r = false) (e : Expr) :
    Agree (evaluate settings e r σ) (evaluate settings e.ungrouped r σ) := by
  fun_induction Expr.ungrouped e with
  | case1 inner ih =>
    have hgroup : ((Expr.group inner).denote r).exec settings σ =
        evaluate settings inner r σ := by
      rw [Expr.denote]
      rfl
    exact ((Agree.evaluate (.group inner) h).trans (.of_eq hgroup)).trans ih
  | case2 => exact .refl _

theorem denote_coalesce :
    (Expr.binary .coalesce left right).denote = Step.coalesce left.step right.step := by
  rw [Expr.denote]
  rfl

theorem agree_coalesce (h : σ.store.isBranch r = false) :
    Agree (evaluate settings (.binary .coalesce left right) r σ)
      (fallback settings right.step r (evaluate settings left r σ)) := by
  refine (Agree.evaluate _ h).trans (.of_eq ?_)
  rw [denote_coalesce]
  exact exec_coalesce

-- ---------------------------------------------------------------------------
-- What is passed on the way
-- ---------------------------------------------------------------------------

variable {m : Moment Session Sorting}

theorem moments_ungrouped (h : σ.store.isBranch r = false) (e : Expr) :
    Eval.Moments settings (e.step r) σ m ↔ Eval.Moments settings (e.ungrouped.step r) σ m := by
  fun_induction Expr.ungrouped e with
  | case1 inner ih =>
    rw [moments_step h, ← ih, Expr.denote]
    rfl
  | case2 => rfl

theorem moments_coalesce_of_not_lacking (h : ¬ Lacking ((f r).exec settings σ))
    (hx : Unbranched ((f r).exec settings σ)) :
    Eval.Moments settings (Step.coalesce f g r) σ m ↔ Eval.Moments settings (f r) σ m := by
  rw [Step.coalesce, Eval.moments_bind, Eval.moments_tryCatch, map_eq_pure_bind, Eval.moments_bind,
    Eval.exec_tryCatch, Eval.exec_bind]
  rcases hout : (f r).exec settings σ with ⟨z | a, υ⟩ <;> rw [hout] at h hx
  · have hmiss : ¬ z.isMiss = true := fun hmiss => h (EvalError.isMiss_iff.1 hmiss)
    simp [hmiss]
  · have hbranch := hx a υ rfl
    have hnull : ¬ υ.store.isNull a = true := h
    simp [Eval.moments_bind, Eval.moments_read, hbranch, hnull]

-- ---------------------------------------------------------------------------
-- Subjects that stay no branches
-- ---------------------------------------------------------------------------

def Store.KeepsSingle (s t : Store) : Prop := ∀ r, s.Single r → t.Single r

/-- Settings whose functions mark no node as a branch that was there before. -/
def Settings.KeepSingles (settings : Settings) : Prop :=
  ∀ name f, settings.functions.find? name = some f →
    ∀ subject arguments, (f.run subject arguments).Leads Store.KeepsSingle

theorem Store.Onward.keepsSingle {s t : Store} (h : s.Onward t) : s.KeepsSingle t :=
  fun _ hr => h.single hr

theorem Settings.keepSingles_builtins (files : FileSystem) (environment : Environment)
    (limit : Nat) : KeepSingles ⟨Registry.builtins files, environment, limit⟩ := by
  have hlenient : Store.Lenient Store.KeepsSingle :=
    { refl := fun _ _ h => h
      trans := fun h k r hr => k r (h r hr)
      new := fun s d => (s.onward_add _).keepsSingle
      copy := fun s r => (Store.Onward.of_grown (Store.grown_plant (s.tree r) s)).keepsSingle }
  intro name f hf
  rcases Registry.builtins_lead hlenient hf with h | ⟨-, rfl⟩
  · exact h
  · exact fun subject _ s => (s.onward_markIgnored subject).keepsSingle

theorem Settings.KeepSingles.permits (hs : settings.KeepSingles) :
    Permits settings (fun σ τ => σ.store.KeepsSingle τ.store) fun _ => true where
  refl _ _ h := h
  trans h k r hr := k r (h r hr)
  new σ _ := (σ.store.onward_add _).keepsSingle
  branch σ _ := (σ.store.onward_add _).keepsSingle
  clearSpread σ r := (σ.store.onward_clearSpread r).keepsSingle
  spread _ σ _ := (σ.store.onward_add _).keepsSingle
  assign _ :=
    { write := fun σ target value => (σ.store.onward_set target value).keepsSingle
      bind := fun σ _ _ => (σ.store.onward_add _).keepsSingle }
  call _ hfind subject arguments σ := hs _ _ hfind subject arguments σ.store

theorem Settings.KeepSingles.evaluate (hs : settings.KeepSingles) (h : σ.store.Single r) (e : Expr)
    (subject : Ref) : (evaluate settings e subject σ).2.store.Single r :=
  evaluate_leads_of_permits hs.permits (e.all_of_forall fun _ => rfl) subject σ r h

-- ---------------------------------------------------------------------------
-- Two operands
-- ---------------------------------------------------------------------------

section
variable (right : Expr) (hsub : σ.store.isBranch r = false)
  (hl : Unbranched (evaluate settings left r σ))
include hsub hl

/-- An outcome that is not given up is that of the fallback, which does nothing besides. -/
theorem coalesce_taken (h : ¬ Lacking (evaluate settings left r σ)) :
    Agree (evaluate settings (.binary .coalesce left right) r σ) (evaluate settings left r σ) ∧
      ∀ m, Eval.Moments settings ((Expr.binary .coalesce left right).step r) σ m ↔
        Eval.Moments settings (left.step r) σ m := by
  refine ⟨(agree_coalesce hsub).trans (.of_eq (fallback_of_not_lacking h hl)), fun m => ?_⟩
  rw [moments_step hsub, denote_coalesce]
  exact moments_coalesce_of_not_lacking h hl

theorem coalesce_given_up (h : Lacking (evaluate settings left r σ)) :
    Agree (evaluate settings (.binary .coalesce left right) r σ)
      (evaluate settings right r (evaluate settings left r σ).2) :=
  (agree_coalesce hsub).trans (.of_eq (fallback_of_lacking h hl))

end

-- ---------------------------------------------------------------------------
-- Three operands
-- ---------------------------------------------------------------------------

/-- How three operands of fallbacks are put together does not matter: the result or the cause of the
error is the same, and so is the session that is left. An outcome of the first operand that is not
given up is that of the whole, and nothing is done on the way but what the first operand does. -/
theorem coalesce_assoc (hs : settings.KeepSingles) (left right : Expr)
    (hleft : left.ungrouped = .binary .coalesce a b)
    (hright : right.ungrouped = .binary .coalesce b c) (hr : σ.store.Single r)
    (ha : Unbranched (evaluate settings a r σ)) :
    Agree (evaluate settings (.binary .coalesce left c) r σ)
        (evaluate settings (.binary .coalesce a right) r σ) ∧
      (¬ Lacking (evaluate settings a r σ) →
        ∀ form ∈ [Expr.binary .coalesce left c, Expr.binary .coalesce a right],
          Agree (evaluate settings form r σ) (evaluate settings a r σ) ∧
          ∀ τ, Eval.Passes settings (form.step r) σ τ ↔
            Eval.Passes settings (a.step r) σ τ) := by
  have hsub := hr.not_branch
  have hinner :
      Agree (evaluate settings left r σ) (evaluate settings (.binary .coalesce a b) r σ) :=
    hleft ▸ agree_ungrouped hsub left
  by_cases hlack : Lacking (evaluate settings a r σ)
  · refine ⟨?_, fun h => absurd hlack h⟩
    -- both go on with the other two operands where the first one has left off
    have hlater := (hs.evaluate hr a r).not_branch
    have hfirst := hinner.trans (coalesce_given_up b hsub ha hlack)
    have hsecond : Agree (evaluate settings right r (evaluate settings a r σ).2)
        (evaluate settings (.binary .coalesce b c) r (evaluate settings a r σ).2) :=
      hright ▸ agree_ungrouped hlater right
    have hforward : Agree (evaluate settings (.binary .coalesce left c) r σ)
        (evaluate settings (.binary .coalesce b c) r (evaluate settings a r σ).2) :=
      ((agree_coalesce hsub).trans (hfirst.fallback c.step r)).trans (agree_coalesce hlater).symm
    exact hforward.trans ((coalesce_given_up right hsub ha hlack).trans hsecond).symm
  · obtain ⟨htaken, hpasses⟩ := coalesce_taken b hsub ha hlack
    have hagree := hinner.trans htaken
    obtain ⟨hwhole, hpassed⟩ := coalesce_taken c hsub (hagree.symm.unbranched ha)
      fun h => hlack (hagree.lacking h)
    obtain ⟨hother, hpassed'⟩ := coalesce_taken right hsub ha hlack
    have hfirst := hwhole.trans hagree
    refine ⟨hfirst.trans hother.symm, fun _ form hform => ?_⟩
    rcases List.mem_pair.1 hform with rfl | rfl
    · refine ⟨hfirst, fun τ => (hpassed τ).trans ((moments_ungrouped hsub left).trans ?_)⟩
      rw [hleft]
      exact hpasses τ
    · exact ⟨hother, fun τ => hpassed' τ⟩

/-- A key that is missing deep down, then a null, and a number at last. -/
theorem coalesce_assoc_missing :
    let settings : Settings := ⟨Registry.builtins FileSystem.bare, fun _ => none, 10⟩
    let start := Session.start (.map []) []
    let missing : Expr := .chain [.property "x", .property "y"]
    let outer : Expr := .binary .coalesce (.group (.binary .coalesce missing .null)) (.integer 2)
    let inner : Expr := .binary .coalesce missing (.group (.binary .coalesce .null (.integer 2)))
    settings.KeepSingles ∧ start.2.store.Single start.1 ∧
      Lacking (evaluate settings missing start.1 start.2) ∧
      Agree (evaluate settings outer start.1 start.2) (evaluate settings inner start.1 start.2) ∧
      (evaluate settings inner start.1 start.2).1.toOption = some ⟨2⟩ := by
  intro settings start missing outer inner
  have hs : settings.KeepSingles := Settings.keepSingles_builtins _ _ _
  have hknown : start.1.index < start.2.store.size := by decide +kernel
  have hsingle : start.2.store.Single start.1 := ⟨hknown, by decide +kernel⟩
  have hmissing : evaluate settings missing start.1 start.2 =
      (.error (.within "chain" (.within "property" (.value (.keyNotFound "x")))), start.2) := rfl
  have hlacking : Lacking (evaluate settings missing start.1 start.2) := by
    rw [hmissing]
    exact ⟨[.node "chain", .node "property"], .value (.keyNotFound "x"), rfl, .key "x"⟩
  have hunbranched : Unbranched (evaluate settings missing start.1 start.2) := by
    rw [hmissing]
    rintro _ _ ⟨⟩
  obtain ⟨hagree, -⟩ := coalesce_assoc hs (.group (.binary .coalesce missing .null))
    (.group (.binary .coalesce .null (.integer 2))) rfl rfl hsingle hunbranched
  exact ⟨hs, hsingle, hlacking, hagree, by decide +kernel⟩

def markSubject : Function where
  name := "mark"
  arity := .exactly 0
  run subject _ := do
    modifyThe Store (·.markBranch subject)
    Action.new .null

/-- Where the first operand makes a branch of its subject, the second one gives a branch, and a
fallback from that evaluates the third one on each null in it. The other way around it is evaluated
on the elements. -/
theorem coalesce_assoc_not_of_mark :
    let settings : Settings :=
      ⟨((Registry.builtins FileSystem.bare).register markSubject).2, fun _ => none, 10⟩
    let start := Session.start (.slice [.slice [.null], .slice [.int 5]]) []
    let a : Expr := .call "mark" []
    let b : Expr := .chain [.var Step.subjectName, .index (.integer 0)]
    let c : Expr := .var Step.subjectName
    let text (e : Expr) : Option (List Char) :=
      let (result, τ) := evaluate settings e start.1 start.2
      result.toOption.map fun r => Json.compact (τ.store.content r)
    start.2.store.Single start.1 ∧ Unbranched (evaluate settings a start.1 start.2) ∧
      text (.binary .coalesce (.group (.binary .coalesce a b)) c) = some "[null,5]".toList ∧
      text (.binary .coalesce a (.group (.binary .coalesce b c))) = some "[[null],5]".toList := by
  intro settings start a b c text
  have hknown : start.1.index < start.2.store.size := by decide +kernel
  have hnull : (match evaluate settings a start.1 start.2 with
      | (.ok q, τ) => τ.store.isBranch q
      | (.error _, _) => false) = false := by
    decide +kernel
  refine ⟨⟨hknown, by decide +kernel⟩, fun q τ h => ?_, by decide +kernel,
    by decide +kernel⟩
  rw [h] at hnull
  exact hnull

end DocSelect
