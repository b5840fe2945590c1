import DocSelect.Proofs.Alike.Evaluation
import DocSelect.Proofs.Alike.Trim
import DocSelect.Proofs.Broadcast.Agreement
import DocSelect.Proofs.Forest
import DocSelect.Proofs.Reachable

/-!
# Operators on branches

A binary operator, a negation and an assignment go over the elements of a left operand that is a
branch, each in a loop of its own. All of these do what the general rule for steps on branches does:
evaluate the left operand, and then, for each element as the subject, the same expression with the
subject in the operand's place.

The general rule leaves out ignored results, which the loops keep. So this is about sessions in
which an evaluation comes to no ignored node, and expressions that make none.
-/
namespace DocSelect

-- ---------------------------------------------------------------------------
-- Sessions that show all nodes
-- ---------------------------------------------------------------------------

/-- No evaluation that begins with these nodes finds an ignored one, unless it makes it: the session
is alike to one without ignored nodes. -/
def Session.Shows (σ : Session) (refs : List Ref) : Prop :=
  ∃ m τ, σ.Alike m τ ∧ (∀ r ∈ refs, ∃ r', m r r') ∧ τ.store.Bears Marks.Shown

variable {settings : Settings} {σ τ : Session} {r b subject : Ref} {refs items : List Ref}
  {e l : Expr}

namespace Session.Shows

theorem isIgnored (h : σ.Shows refs) (hr : r ∈ refs) : σ.store.isIgnored r = false := by
  obtain ⟨m, τ, halike, hpaired, hbears⟩ := h
  obtain ⟨r', hm⟩ := hpaired r hr
  rw [halike.store.isIgnored_eq hm]
  exact hbears r'

theorem evaluate (hs : settings.Regular) (h : σ.Shows refs) (hr : r ∈ refs)
    (he : e.ignoreFree = true) {result : Except EvalError Ref}
    (heq : DocSelect.evaluate settings e r σ = (result, τ)) :
    τ.Shows refs ∧ ∀ q, result = .ok q → τ.Shows (q :: refs) := by
  obtain ⟨m, τ₀, halike, hpaired, hbears⟩ := h
  obtain ⟨r', hm⟩ := hpaired r hr
  obtain ⟨m', hle, halike', hresult⟩ := evaluate_alike hs.respectful e hm halike
  have hbears' := evaluate_leads_of_permits hs.shown he r' τ₀ hbears
  have hpaired' (c : Ref) (hc : c ∈ refs) : ∃ c', m' c c' :=
    let ⟨c', hc⟩ := hpaired c hc
    ⟨c', hle _ _ hc⟩
  rw [heq] at halike' hresult
  refine ⟨⟨m', _, halike', hpaired', hbears'⟩,
    fun q hq => ⟨m', _, halike', fun c hc => ?_, hbears'⟩⟩
  rcases List.mem_cons.1 hc with rfl | hc
  · subst hq
    generalize (DocSelect.evaluate settings e r' τ₀).1 = y at hresult
    cases hresult with
    | ok hm => exact ⟨_, hm⟩
  · exact hpaired' c hc

theorem elements (h : σ.Shows refs) (hb : b ∈ refs) (hitems : σ.store.items? b = .ok items) :
    σ.Shows items := by
  obtain ⟨m, τ, halike, hpaired, hbears⟩ := h
  obtain ⟨b', hm⟩ := hpaired b hb
  refine ⟨m, τ, halike, fun r hr => ?_, hbears⟩
  have hall := halike.store.items? hm
  rw [hitems] at hall
  generalize τ.store.items? b' = y at hall
  cases hall with
  | ok hall =>
    obtain ⟨r', -, hm⟩ := exists_of_forall₂_left hall hr
    exact ⟨r', hm⟩

end Session.Shows

structure Session.Ready (σ : Session) (items : List Ref) : Prop where
  sound : σ.Sound .soundness
  single : ∀ r ∈ items, σ.store.Single r
  shows : σ.Shows items

theorem Session.Ready.evaluate (hs : settings.Regular) (h : σ.Ready items) (hr : r ∈ items)
    (he : e.ignoreFree = true) {q : Ref} (heq : evaluate settings e r σ = (.ok q, τ)) :
    τ.Ready items ∧ τ.store.isIgnored q = false := by
  have hout := h.sound.outcome hs.keeping e (h.single r hr).known
  rw [evaluate_eq_exec] at heq
  obtain ⟨-, hleft, hon, -⟩ := hout
  rw [heq] at hleft hon
  obtain ⟨hshows, hresult⟩ := h.shows.evaluate hs hr he heq
  exact ⟨⟨hleft, fun c hc => hon.single (h.single c hc), hshows⟩,
    (hresult q rfl).isIgnored List.mem_cons_self⟩

-- ---------------------------------------------------------------------------
-- The general rule
-- ---------------------------------------------------------------------------

theorem chain_two (f g : Step) (r : Ref) : Step.chain [f, g] r = f r >>= g := by
  simp [Step.chain]

/-- A chain whose first step gives a branch goes over the elements with the second step. -/
theorem agree_chain_group (hsub : σ.store.isBranch subject = false)
    (hl : evaluate settings l subject σ = (.ok b, τ)) (hb : τ.store.isBranch b = true)
    (inner : Expr) :
    Agree (evaluate settings (.chain [l, .group inner]) subject σ)
      ((do let items ← Eval.ask (·.items? b)
           Eval.newBranch
             (← Step.collectKept (Step.within "group" (Expr.group inner).denote) items)).exec
        settings τ) := by
  refine (Agree.evaluate _ hsub).trans (.of_eq ?_)
  have hgroup : evaluate settings (.group inner) b τ = _ := evaluate_of_branch _ hb
  rw [evaluate_eq_exec, Expr.step] at hl hgroup
  simp only [Expr.denote, Expr.denoteAll, chain_two]
  rw [Eval.exec_bind, hl]
  exact hgroup

/-- A loop over the elements of a branch agrees with the chain if one round agrees with the
expression in the group. -/
theorem agree_chain_group_of_loop (hs : settings.Regular) {f : Step} {inner : Expr}
    (hσ : σ.Ready [subject]) (hle : l.ignoreFree = true) (hinner : inner.ignoreFree = true)
    (hl : evaluate settings l subject σ = (.ok b, τ)) (hb : τ.store.isBranch b = true)
    (hloop : (e.denote subject).exec settings σ =
      (do let items ← Eval.ask (·.items? b)
          Eval.newBranch (← Step.collect f items)).exec settings τ)
    (hround : ∀ (r : Ref) (υ : Session), υ.store.isBranch r = false →
      (f r).exec settings υ = (inner.denote r).exec settings υ) :
    Agree (evaluate settings e subject σ)
      (evaluate settings (.chain [l, .group inner]) subject σ) := by
  have hmem : subject ∈ [subject] := List.mem_cons_self
  have hsub := hσ.single subject hmem
  have hgroup : (Expr.group inner).ignoreFree = true := by
    simpa [Expr.ignoreFree, Expr.all, Expr.isCallOf] using hinner
  obtain ⟨-, hτ, -, -⟩ := hσ.sound.outcome hs.keeping l hsub.known
  have hshows := (hσ.shows.evaluate hs hmem hle hl).2 b rfl
  rw [← evaluate_eq_exec, hl] at hτ
  refine (Agree.evaluate e hsub.not_branch).trans ?_
  rw [hloop]
  refine .trans ?_ (agree_chain_group hsub.not_branch hl hb inner).symm
  refine .bind_right fun items υ hask => ?_
  rw [Eval.exec_ask] at hask
  obtain ⟨hfound, rfl⟩ := Prod.mk.inj hask
  have hitems : τ.store.items? b = .ok items := eq_ok_of_mapError hfound
  have hready : τ.Ready items :=
    ⟨hτ, fun r hr => hτ.store.element_single hb (Store.part_of_items? hitems hr),
      hshows.elements List.mem_cons_self hitems⟩
  -- within the group, the inner expression is evaluated on a subject that is no branch
  have hwithin {r : Ref} {ρ : Session} (hr : ρ.store.isBranch r = false) :
      (Step.within "group" (Expr.group inner).denote r).exec settings ρ =
        evaluate settings (.group inner) r ρ :=
    (evaluate_eq_within (.group inner) hr).symm
  refine .bind (Agree.collect (I := fun ρ => ρ.Ready items) (fun r hr ρ hρ => ?_)
    (fun r hr ρ q ρ' hρ hq => ?_) hready) fun _ _ _ _ => .refl _
  · have hr := (hρ.single r hr).not_branch
    rw [hround r ρ hr]
    refine .symm ((Agree.within ..).trans ?_)
    simp only [Expr.denote]
    exact Agree.evaluate inner hr
  · rw [hwithin (hρ.single r hr).not_branch] at hq
    exact hρ.evaluate hs hr hgroup hq

-- ---------------------------------------------------------------------------
-- The expressions with a loop of their own
-- ---------------------------------------------------------------------------

/-- An expression without the operand whose elements it goes over. -/
inductive OperandForm where
  | binary (op : BinaryOp) (right : Expr)
  | not
  | assign (op : Option BinaryOp) (value : Expr)

namespace OperandForm

def on : OperandForm → Expr → Expr
  | binary op right, operand => .binary op operand right
  | not, operand => .not operand
  | assign op value, operand => .assign operand op value

def apply : OperandForm → (operand subject : Ref) → Eval Ref
  | binary .coalesce right, a, subject => do
    if (← Eval.read (·.isNull a)) then right.step subject else return a
  | binary op right, a, subject => Step.applyTo op right.pattern? right.step a subject
  | not, a, _ => Step.negation a
  | assign op value, a, subject => do Step.writeInto a op (← value.step subject)

def applyAll (form : OperandForm) (a subject : Ref) : Eval Ref := do
  if (← Eval.read (·.isBranch a)) then
    let items ← Eval.ask (·.items? a)
    Eval.newBranch (← Step.collect (fun item => form.apply item item) items)
  else form.apply a subject

theorem exec_orMiss {f : Step} {q : Ref} (h : (f r).exec settings σ = (.ok q, τ)) :
    (tryCatch (some <$> f r) fun e => if e.isMiss then pure none
      else throw e : Eval (Option Ref)).exec settings σ = (.ok (some q), τ) := by
  rw [Eval.exec_tryCatch, map_eq_pure_bind, Eval.exec_bind, h]
  rfl

def Bound (form : OperandForm) (operand : Expr) (σ : Session) : Prop :=
  ∀ op value, form = assign op value →
    ∀ name ∈ operand.bindable?, σ.bindings.contains name = true

theorem exec_on {form : OperandForm} {operand : Expr} (hbound : form.Bound operand σ)
    (h : evaluate settings operand r σ = (.ok b, τ)) :
    ((form.on operand).denote r).exec settings σ = (form.applyAll b r).exec settings τ := by
  rw [evaluate_eq_exec, Expr.step] at h
  cases form with
  | binary op right =>
    cases op
    case coalesce =>
      simp only [on, Expr.denote, Step.coalesce]
      rw [Eval.exec_bind, exec_orMiss h]
      rfl
    all_goals
      simp only [on, Expr.denote, Step.binary]
      rw [Eval.exec_bind, h]
      rfl
  | not =>
    simp only [on, Expr.denote, Step.not]
    rw [Eval.exec_bind, h]
    rfl
  | assign op value =>
    have hbound := hbound op value rfl
    simp only [on, Expr.denote, Step.assign]
    cases hname : operand.bindable? with
    | none =>
      rw [Eval.exec_bind _ (operand.lift operand.denote r), h]
      rfl
    | some name =>
      have hbind : (Step.bindUnbound name).exec settings σ = (.ok (), σ) := by
        rw [Step.bindUnbound, Eval.exec_bind, Eval.exec_get]
        simp only [hbound name hname, if_true]
        rfl
      rw [Eval.exec_bind _ (Step.bindUnbound name), hbind]
      dsimp only
      rw [Eval.exec_bind _ (operand.lift operand.denote r), h]
      rfl

theorem evaluate_this (hr : σ.store.isBranch r = false) :
    evaluate settings (.var "this") r σ = (.ok r, σ) :=
  evaluate_ok _ hr (by simp only [Expr.denote, Step.var, Step.subjectName, if_pos]; rfl)

theorem exec_var_unbound {name : String} (hne : name ≠ Step.subjectName)
    (hfind : σ.bindings.find? name = none) :
    ((Expr.var name).denote r).exec settings σ =
      match (settings.environment name).filter (!·.isEmpty) with
      | some text => (.ok (σ.store.new (.string text)).1,
          { σ with store := (σ.store.new (.string text)).2 })
      | none => (.error (.undefinedVariable name), σ) := by
  simp only [Expr.denote, Step.var, if_neg hne]
  rw [Eval.exec_bind, Eval.exec_get]
  simp only [hfind]
  rw [Eval.exec_bind, Eval.exec_settings]
  dsimp only
  cases (settings.environment name).filter (!·.isEmpty) <;> rfl

theorem bound_of_isBranch (form : OperandForm) {operand : Expr} (hr : σ.store.isBranch r = false)
    (h : evaluate settings operand r σ = (.ok b, τ)) (hb : τ.store.isBranch b = true) :
    form.Bound operand σ := by
  rintro op value - name hname
  obtain ⟨rfl, hne⟩ : operand = .var name ∧ name ≠ Step.subjectName := by
    unfold Expr.bindable? at hname
    split at hname
    · split at hname
      · cases hname
      · cases hname
        exact ⟨rfl, by assumption⟩
    · cases hname
  rw [Dict.contains, Option.isSome_iff_ne_none]
  intro hfind
  rw [evaluate_of_not_branch _ hr, exec_var_unbound hne hfind] at h
  cases hfilter : (settings.environment name).filter (!·.isEmpty) with
  | none =>
    rw [hfilter] at h
    cases h
  | some text =>
    rw [hfilter] at h
    cases h
    rw [Store.isBranch, Store.marks, Store.new, Store.node_add_self] at hb
    cases hb

theorem ignoreFree_on {form : OperandForm} {operand : Expr}
    (h : (form.on operand).ignoreFree = true) (other : Expr) (ho : other.ignoreFree = true) :
    (form.on other).ignoreFree = true := by
  unfold Expr.ignoreFree at h ho ⊢
  cases form <;> simp_all [on, Expr.all, Expr.isCallOf]

end OperandForm

-- ---------------------------------------------------------------------------
-- Chains that are merged
-- ---------------------------------------------------------------------------

theorem agree_steps (hsub : σ.store.isBranch subject = false) (e : Expr) :
    Agree ((e.step subject).exec settings σ)
      ((Step.chain (e.steps.map Expr.step) subject).exec settings σ) := by
  unfold Expr.steps
  split
  · rename_i steps
    rw [← evaluate_eq_exec, ← Expr.denoteAll_eq_map]
    refine (Agree.evaluate _ hsub).trans ?_
    simp only [Expr.denote]
    exact .refl _
  · simp only [List.map_cons, List.map_nil, Step.chain, bind_pure]
    exact .refl _

theorem chained_pair {f : Expr} (hne : l.steps ≠ []) (hf : f.steps = [f]) :
    Expr.chained [l, f] = .chain (l.steps ++ [f]) := by
  have hflat : [l, f].flatMap Expr.steps = l.steps ++ [f] := by simp [hf]
  obtain ⟨s, rest, hs⟩ := List.exists_cons_of_ne_nil hne
  rw [Expr.chained, hflat, hs]
  cases rest <;> rfl

theorem evaluate_of_steps_nil (hsub : σ.store.isBranch subject = false) (hnil : l.steps = []) :
    evaluate settings l subject σ = (.ok subject, σ) := by
  unfold Expr.steps at hnil
  split at hnil
  · subst hnil
    exact evaluate_ok _ hsub rfl
  · cases hnil

/-- On a subject that is no branch, an expression after another one goes on from its result. -/
theorem agree_chained_pair {f : Expr} (hsub : σ.store.isBranch subject = false)
    (hf : f.steps = [f]) :
    Agree (evaluate settings (Expr.chained [l, f]) subject σ)
      ((l.step subject >>= f.step).exec settings σ) := by
  by_cases hnil : l.steps = []
  · have hchained : Expr.chained [l, f] = f := by simp [Expr.chained, hnil, hf]
    rw [hchained, Eval.exec_bind, ← evaluate_eq_exec, evaluate_of_steps_nil hsub hnil]
    exact .refl _
  · rw [chained_pair hnil hf]
    refine (Agree.evaluate _ hsub).trans ?_
    simp only [Expr.denote, Expr.denoteAll_eq_map, List.map_append, chain_append]
    simp only [List.map_cons, List.map_nil, Step.chain, bind_pure]
    exact .bind (agree_steps hsub l).symm fun _ _ _ _ => .refl _

theorem agree_chained {f : Expr} (hsub : σ.store.isBranch subject = false) (hf : f.steps = [f])
    (hl : evaluate settings l subject σ = (.ok b, τ)) :
    Agree (evaluate settings (Expr.chained [l, f]) subject σ) (evaluate settings f b τ) := by
  refine (agree_chained_pair hsub hf).trans (.of_eq ?_)
  rw [Eval.exec_bind, ← evaluate_eq_exec, hl]
  rfl

/-- On a subject that is no branch, merging a chain into the one that it begins changes nothing. -/
theorem agree_chained_group (hsub : σ.store.isBranch subject = false) (inner : Expr) :
    Agree (evaluate settings (.chain [l, .group inner]) subject σ)
      (evaluate settings (Expr.chained [l, .group inner]) subject σ) := by
  refine (Agree.evaluate _ hsub).trans (.trans (.of_eq ?_) (agree_chained_pair hsub rfl).symm)
  simp only [Expr.denote, Expr.denoteAll, chain_two]
  rfl

/-- Where the operand is a branch, an operator, a negation or an assignment does what a chain does
that goes on from the operand, for each element, with the same expression on the subject: the same
session is left, with the same result or with errors of the same cause. Whether the chain is merged
with an operand that is one makes no difference. -/
theorem agree_on_subject (files : FileSystem) (environment : Environment) (limit : Nat)
    (hσ : σ.Reachable ⟨Registry.builtins files, environment, limit⟩)
    (hsub : σ.store.Single subject)
    (hshown : ∀ r, σ.Live subject r → σ.store.isIgnored r = false) (form : OperandForm)
    (hform : (form.on l).ignoreFree = true)
    (hl : evaluate ⟨Registry.builtins files, environment, limit⟩ l subject σ = (.ok b, τ))
    (hb : τ.store.isBranch b = true) :
    Agree (evaluate ⟨Registry.builtins files, environment, limit⟩ (form.on l) subject σ)
        (evaluate ⟨Registry.builtins files, environment, limit⟩
          (.chain [l, .group (form.on (.var "this"))]) subject σ) ∧
      Agree (evaluate ⟨Registry.builtins files, environment, limit⟩ (form.on l) subject σ)
        (evaluate ⟨Registry.builtins files, environment, limit⟩
          (Expr.chained [l, .group (form.on (.var "this"))]) subject σ) := by
  have hs := Settings.regular_builtins files environment limit
  have hsound := hσ.sound hs.keeping
  obtain ⟨m, υ, halike, hm, -, hbears⟩ :=
    hsound.exists_alike (P := Marks.Shown) hsub.known rfl hshown
  have hready : σ.Ready [subject] := by
    refine ⟨hsound, fun r hr => List.mem_singleton.1 hr ▸ hsub, m, υ, halike,
      fun r hr => ?_, hbears⟩
    exact ⟨subject, List.mem_singleton.1 hr ▸ hm⟩
  have hle : l.ignoreFree = true := by
    unfold Expr.ignoreFree at hform ⊢
    cases form <;> simp_all [OperandForm.on, Expr.all]
  have hinner := OperandForm.ignoreFree_on hform (.var "this") rfl
  suffices h : Agree (evaluate ⟨Registry.builtins files, environment, limit⟩
      (form.on l) subject σ) (evaluate ⟨Registry.builtins files, environment, limit⟩
        (.chain [l, .group (form.on (.var "this"))]) subject σ) from
    ⟨h, h.trans (agree_chained_group hsub.not_branch _)⟩
  refine agree_chain_group_of_loop hs (f := fun item => form.apply item item) hready
    hle hinner hl hb ?_ fun r ρ hr => ?_
  · rw [OperandForm.exec_on (form.bound_of_isBranch hsub.not_branch hl hb) hl,
      OperandForm.applyAll, Eval.exec_bind, Eval.exec_read]
    simp only [hb, if_true]
  · have hbound : form.Bound (.var "this") ρ := fun _ _ _ name hname => by cases hname
    rw [OperandForm.exec_on hbound (OperandForm.evaluate_this hr),
      OperandForm.applyAll, Eval.exec_bind, Eval.exec_read]
    simp only [hr, Bool.false_eq_true, if_false]

/-- Adding one to each of the elements of a document. -/
theorem agree_on_subject_increments :
    let settings : Settings := ⟨Registry.builtins FileSystem.bare, fun _ => none, 10⟩
    let start := Session.start (.slice [.int 1, .int 2]) []
    let form : OperandForm := .assign (some .add) (.integer 1)
    ∃ τ, evaluate settings (.branch []) start.1 start.2 = (.ok ⟨3⟩, τ) ∧
      τ.store.isBranch ⟨3⟩ = true ∧
      Agree (evaluate settings (form.on (.branch [])) start.1 start.2)
          (evaluate settings (.chain [.branch [], .group (form.on (.var "this"))])
            start.1 start.2) ∧
        Agree (evaluate settings (form.on (.branch [])) start.1 start.2)
          (evaluate settings (Expr.chained [.branch [], .group (form.on (.var "this"))]) start.1
            start.2) := by
  intro settings start form
  have hunmarked := (Session.Plain.start (.slice [.int 1, .int 2]) []).unmarked
  refine ⟨_, rfl, rfl, agree_on_subject _ _ _ (.start settings _ _) ⟨?_, ?_⟩
    (fun r _ => ?_) form ?_ rfl rfl⟩
  · show 2 < 3
    decide
  · rw [Store.isBranch, hunmarked]
    rfl
  · rw [Store.isIgnored, hunmarked]
    rfl
  · decide

end DocSelect
