import DocSelect.Proofs.Broadcast.Operand
import DocSelect.Proofs.Listing
import DocSelect.Proofs.Quiet
import DocSelect.Proofs.Turns

/-!
# Ignored results

Evaluation on a branch leaves out the results that are ignored. It looks at each result as a whole,
so that the elements of a result that is itself a branch are taken as they are. The loops of
operators and assignments leave out nothing: `??` and a plain assignment hand on nodes that may be
ignored, and the others make a new value for each element.
-/
namespace DocSelect

variable {settings : Settings} {σ τ υ : Session} {s t : Store} {subject r a b q c : Ref}
  {items found : List Ref} {e operand : Expr}

-- ---------------------------------------------------------------------------
-- Results that are made
-- ---------------------------------------------------------------------------

namespace Store

theorem copyData_of_scalar {x : Scalar} (h : s.data r = .scalar x) :
    s.copyData r = (.scalar x, s) := by
  have htree : s.tree r = .scalar r (s.marks r) x := by rw [tree, treeWithin, h]
  rw [copyData, htree]

theorem isScalar_set {x : Scalar} (h : s.data q = .scalar x) (hr : s.Known r) :
    (s.set r q).isScalar r = true := by
  rw [set, copyData_of_scalar h]
  dsimp only
  rw [isScalar, kind, data_setData_self s _ hr]
  cases x <;> rfl

structure Makes (s t : Store) (q : Ref) : Prop where
  quiet : s.Quiet t
  known : t.Known q
  marks : t.marks q = Marks.none
  scalar : ∃ x, t.data q = .scalar x

namespace Makes

theorem of_new (x : Scalar) : s.Makes (s.new (.scalar x)).2 (s.new (.scalar x)).1 where
  quiet := .add s _
  known := s.known_add_self _
  marks := s.marks_new_self _
  scalar := ⟨x, s.data_new_self _⟩

theorem after {u : Store} (h : t.Makes u q) (hs : s.Quiet t) : s.Makes u q :=
  ⟨hs.trans h.quiet, h.known, h.marks, h.scalar⟩

theorem not_branch (h : s.Makes t q) : t.isBranch q = false := by
  rw [isBranch, h.marks]
  rfl

theorem children (h : s.Makes t q) : (t.data q).children = [] := by
  obtain ⟨x, hx⟩ := h.scalar
  rw [hx, Data.children]

theorem marks_later {u : Store} (h : s.Makes t q) (hu : t.Quiet u) : u.marks q = Marks.none := by
  have hspread : t.isSpread q = false := by
    rw [isSpread, h.marks]
    rfl
  exact (hu.marks h.known hspread).trans h.marks

end Makes

end Store

theorem makes_operate {op : BinaryOp} (h : (Step.operate op a b).exec settings σ = (.ok q, τ)) :
    σ.store.Makes τ.store q := by
  rw [Step.operate, Eval.exec_bind, Eval.exec_read] at h
  dsimp only at h
  cases hop : σ.store.operate? op a b with
  | error x =>
    rw [hop] at h
    cases h
  | ok x =>
    rw [hop] at h
    cases h
    exact .of_new x

theorem makes_matching {op : BinaryOp} {pattern : Option String}
    (h : (Step.matching op pattern a).exec settings σ = (.ok q, τ)) :
    σ.store.Makes τ.store q := by
  unfold Step.matching at h
  split at h
  · cases h
  · split at h
    · cases h
    · rw [Eval.exec_bind, Eval.exec_ask] at h
      cases htext : σ.store.string? a with
      | error x =>
        rw [htext] at h
        cases h
      | ok text =>
        rw [htext] at h
        cases h
        exact .of_new _

theorem makes_negation (h : (Step.negation a).exec settings σ = (.ok q, τ)) :
    σ.store.Makes τ.store q := by
  rw [Step.negation, Eval.exec_bind, Eval.exec_ask] at h
  cases htruth : σ.store.bool? a with
  | error x =>
    rw [htruth] at h
    cases h
  | ok truth =>
    rw [htruth] at h
    cases h
    exact .of_new _

theorem makes_writeInto {op : BinaryOp} (ha : σ.store.Known a)
    (h : (Step.writeInto a (some op) b).exec settings σ = (.ok q, τ)) :
    σ.store.Makes τ.store q := by
  unfold Step.writeInto at h
  dsimp only at h
  rw [Eval.exec_bind] at h
  rcases hop : (Step.operate op a b).exec settings σ with ⟨x | n, υ⟩ <;> rw [hop] at h
  · cases h
  · have hn := makes_operate hop
    obtain ⟨x, hx⟩ := hn.scalar
    have hscalar := Store.isScalar_set hx (hn.quiet.known ha)
    simp only [Eval.exec_bind, Eval.exec_change, Eval.exec_read, hscalar, if_true] at h
    cases h
    have hset := Store.Quiet.set υ.store a q
    refine ⟨hn.quiet.trans hset, hset.known hn.known, hn.marks_later hset, x, ?_⟩
    rw [Store.set, Store.copyData_of_scalar hx]
    by_cases heq : q = a
    · subst heq
      exact Store.data_setData_self _ _ hn.known
    · show Store.data (Store.setData _ _ _) q = _
      rw [Store.data, Store.setData, Store.node_modify_of_ne _ _ heq]
      exact hx

-- ---------------------------------------------------------------------------
-- Loops that make their results
-- ---------------------------------------------------------------------------

/-- The results are new values, and what makes them marks nothing. -/
def OperandForm.Fresh : OperandForm → Prop
  | binary .coalesce _ => False
  | binary .like _ | binary .notLike _ | not => True
  | binary _ right => right.ignoreFree = true
  | assign none _ => False
  | assign (some _) value => value.ignoreFree = true

theorem OperandForm.Fresh.strict {form : OperandForm} (h : form.Fresh) : form.Strict := by
  cases form with
  | binary op right => cases op <;> first | exact h | trivial
  | not => trivial
  | assign op value => trivial

section
variable {files : FileSystem} {environment : Environment} {limit : Nat}

theorem OperandForm.Fresh.makes {form : OperandForm} (h : form.Fresh) (ha : σ.store.Known a)
    (hrun : (form.apply a r).exec ⟨Registry.builtins files, environment, limit⟩ σ =
      (.ok q, τ)) : σ.store.Makes τ.store q := by
  -- the right operand, or the value, comes first
  have hthen {right : Expr} (hright : right.ignoreFree = true) {f : Ref → Eval Ref}
      (hf : ∀ c υ, υ.store.Known a →
        (f c).exec ⟨Registry.builtins files, environment, limit⟩ υ = (.ok q, τ) →
        υ.store.Makes τ.store q)
      (hrun : (right.step r >>= f).exec ⟨Registry.builtins files, environment, limit⟩ σ =
        (.ok q, τ)) : σ.store.Makes τ.store q := by
    have hquiet := evaluate_quiet files environment limit hright r σ
    rw [Eval.exec_bind] at hrun
    rw [evaluate_eq_exec] at hquiet
    rcases hc : (right.step r).exec ⟨Registry.builtins files, environment, limit⟩ σ
      with ⟨x | c, υ⟩ <;> rw [hc] at hrun hquiet
    · cases hrun
    · exact (hf c υ (hquiet.known ha) hrun).after hquiet
  cases form with
  | binary op right =>
    cases op
    case coalesce => exact h.elim
    case like | notLike => exact makes_matching hrun
    all_goals exact hthen h (fun c υ _ hop => makes_operate hop) hrun
  | not => exact makes_negation hrun
  | assign op value =>
    cases op with
    | none => exact h.elim
    | some op => exact hthen h (fun c υ ha hwrite => makes_writeInto ha hwrite) hrun

end

theorem exec_collect_cons (f : Step) (rest : List Ref) :
    (Step.collect f (r :: rest)).exec settings σ =
      match (f r).exec settings σ with
      | (.error x, τ) => (.error x, τ)
      | (.ok q, τ) =>
        match τ.store.flatten q with
        | .error x => (.error (.value x), τ)
        | .ok taken =>
          match (Step.collect f rest).exec settings τ with
          | (.error x, υ) => (.error x, υ)
          | (.ok others, υ) => (.ok (taken ++ others), υ) := by
  rw [Step.collect, Eval.exec_bind]
  rcases (f r).exec settings σ with ⟨x | q, τ⟩
  · rfl
  · dsimp only
    rw [Eval.exec_bind, Eval.exec_ask]
    cases τ.store.flatten q with
    | error x => rfl
    | ok taken =>
      dsimp only [Except.mapError]
      rw [Eval.exec_bind]
      rcases (Step.collect f rest).exec settings τ with ⟨x | others, υ⟩ <;> rfl

theorem collect_makes {f : Step} (hitems : ∀ r ∈ items, σ.store.Known r)
    (hf : ∀ r σ q τ, σ.store.Known r → (f r).exec settings σ = (.ok q, τ) →
      σ.store.Makes τ.store q) (h : (Step.collect f items).exec settings σ = (.ok found, τ)) :
    σ.store.Quiet τ.store ∧ ∀ c ∈ found, τ.store.Known c ∧
    τ.store.marks c = Marks.none := by
  induction items generalizing σ found with
  | nil =>
    cases h
    exact ⟨.refl _, fun _ hc => absurd hc List.not_mem_nil⟩
  | cons r rest ih =>
    rw [exec_collect_cons] at h
    rcases hr : (f r).exec settings σ with ⟨x | q, υ⟩ <;> rw [hr] at h <;> dsimp only at h
    · cases h
    have hq := hf r σ q υ (hitems r List.mem_cons_self) hr
    have hflatten : υ.store.flatten q = .ok [q] := by
      simp [Store.flatten, Store.flattenWithin, hq.not_branch]
    rw [hflatten] at h
    dsimp only at h
    rcases hrest : (Step.collect f rest).exec settings υ with ⟨x | others, ψ⟩ <;>
      rw [hrest] at h <;> cases h
    obtain ⟨hquiet, hothers⟩ :=
      ih (fun d hd => hq.quiet.known (hitems d (List.mem_cons_of_mem _ hd))) hrest
    refine ⟨hq.quiet.trans hquiet, fun c hc => ?_⟩
    rcases List.mem_cons.1 hc with rfl | hc
    · exact ⟨hquiet.known hq.known, hq.marks_later hquiet⟩
    · exact hothers c hc

/-- A loop that makes its results collects none that is ignored, even if its operand marks nodes. -/
theorem OperandForm.Fresh.collected {files : FileSystem} {environment : Environment} {limit : Nat}
    {form : OperandForm} (h : form.Fresh) (hσ : σ.Sound .soundness)
    (hsub : σ.store.Single subject)
    (hrun : evaluate ⟨Registry.builtins files, environment, limit⟩
      (form.on operand) subject σ = (.ok b, τ)) :
    ∀ c ∈ (τ.store.data b).children, τ.store.isIgnored c = false := by
  have hs := Settings.keeping_builtins .soundness files environment limit
  obtain ⟨hprepared, hon⟩ := form.sound_prepared hσ operand
  rw [evaluate_eq_ok_iff _ hsub.not_branch, exec_denote _ _ h.strict] at hrun
  rcases hoperand : evaluate ⟨Registry.builtins files, environment, limit⟩ operand subject
    (form.prepared operand σ) with ⟨x | a, υ⟩ <;> rw [hoperand] at hrun <;> dsimp only at hrun
  · cases hrun
  obtain ⟨hυ, -, hresult⟩ := hprepared.after hs (hon.known hsub.known) hoperand
  have ha := hresult a rfl
  rw [applyAll, Eval.exec_bind, Eval.exec_read] at hrun
  dsimp only at hrun
  rcases hb : υ.store.isBranch a with _ | _
  · simp only [hb, Bool.false_eq_true, if_false] at hrun
    rw [(h.makes ha hrun).children]
    exact fun c hc => absurd hc List.not_mem_nil
  · simp only [hb, if_true, Eval.exec_bind, Eval.exec_ask, hυ.store.items?_of_isBranch hb,
      Except.mapError] at hrun
    rcases hloop : (Step.collect (fun item => form.apply item item) (υ.store.turns a)).exec
      ⟨Registry.builtins files, environment, limit⟩ υ with ⟨x | found, ψ⟩ <;>
      rw [hloop] at hrun <;>
      dsimp only at hrun
    · cases hrun
    rw [Eval.exec_newBranch] at hrun
    cases hrun
    obtain ⟨-, hfound⟩ := collect_makes (fun c hc => (hυ.store.turns_single ha c hc).known)
      (fun _ _ _ _ hr => h.makes hr) hloop
    rw [Store.data, Store.node_add_self]
    intro c hc
    obtain ⟨hknown, hmarks⟩ := hfound c hc
    rw [Store.isIgnored, Store.marks_add_of_known _ hknown, hmarks]
    rfl

/-- What is collected on a branch comes from results that are not ignored when they are there. The
loop of an operator that makes its results, of a negation and of a compound assignment collects
nothing that is ignored, as long as the right operand marks nothing. And no branch at all holds an
ignored element after an expression that marks nothing, where the evaluation can come to no ignored
node. -/
theorem collected_not_ignored (files : FileSystem) (environment : Environment) (limit : Nat)
    (hσ : σ.Met ⟨Registry.builtins files, environment, limit⟩) (hsub : σ.store.Known subject)
    (h : evaluate ⟨Registry.builtins files, environment, limit⟩ e subject σ = (.ok b, τ)) :
    (σ.store.isBranch subject = true → ∀ c ∈ (τ.store.data b).children,
      ∃ ρ r, σ.Turn ⟨Registry.builtins files, environment, limit⟩ e subject ρ r ∧
        ρ.Contributes ⟨Registry.builtins files, environment, limit⟩ e r c) ∧
    (σ.store.isBranch subject = false → ∀ form operand,
      e = OperandForm.on form operand → form.Fresh →
      ∀ c ∈ (τ.store.data b).children, τ.store.isIgnored c = false) ∧
    (e.ignoreFree = true → (∀ r, σ.Live subject r → σ.store.isIgnored r = false) →
      τ.store.isBranch b = true →
      ∀ c ∈ (τ.store.data b).children, τ.store.isIgnored c = false) := by
  have hs := Settings.regular_builtins files environment limit
  have hsound := hσ.sound hs.keeping
  refine ⟨fun hb c hc => Session.Turn.of_mem hs.keeping hsound hsub hb h hc, ?_,
    fun hfree hlive hb => ?_⟩
  · rintro hb form operand rfl hform
    exact hform.collected hsound ⟨hsub, hb⟩ h
  · obtain ⟨m, υ, halike, hm, -, hbears⟩ :=
      hsound.exists_alike (P := Marks.Shown) hsub rfl hlive
    have hshows : σ.Shows [subject] :=
      ⟨m, υ, halike, fun r hr => ⟨subject, List.mem_singleton.1 hr ▸ hm⟩, hbears⟩
    have hbranch := (hshows.evaluate hs List.mem_cons_self hfree h).2 b rfl
    obtain ⟨hτ, -, -⟩ := hsound.after hs.keeping hsub h
    have hitems := hbranch.elements List.mem_cons_self (hτ.store.items?_of_isBranch hb)
    rw [← Store.turns_of_isBranch hb]
    exact fun c hc => hitems.isIgnored hc

/-- A branch whose first element is ignored: evaluation on it leaves the element out, and adding one
to its elements makes new ones. -/
theorem collected_not_ignored_first :
    let settings : Settings := ⟨Registry.builtins FileSystem.bare, fun _ => none, 10⟩
    let start := Session.start (.int 5) []
    let l : Expr := .branch [.call "ignore" [], .integer 1]
    let elements (x : Except EvalError Ref × Session) : Option (List Ref × List Bool) :=
      x.1.toOption.map fun b =>
        ((x.2.store.data b).children, (x.2.store.data b).children.map x.2.store.isIgnored)
    let branch := evaluate settings l start.1 start.2
    let σ := branch.2
    let kept := evaluate settings (.var "this") ⟨2⟩ σ
    let sums := evaluate settings (.binary .add l (.integer 1)) start.1 start.2
    let pair := evaluate settings (.branch [.integer 1, .var "this"]) start.1 start.2
    (elements branch = some ([⟨0⟩, ⟨1⟩], [true, false]) ∧
      elements kept = some ([⟨1⟩], [false]) ∧
      elements sums = some ([⟨4⟩, ⟨6⟩], [false, false]) ∧
      elements pair = some ([⟨1⟩, ⟨0⟩], [false, false])) ∧
    ((start.2.Met settings ∧ start.2.store.Known start.1) ∧ σ.Met settings ∧
      σ.store.Known ⟨2⟩) ∧
    (∃ ρ r, σ.Turn settings (.var "this") ⟨2⟩ ρ r ∧
      ρ.Contributes settings (.var "this") r ⟨1⟩) ∧
      sums.2.store.isIgnored ⟨4⟩ = false ∧ pair.2.store.isIgnored ⟨1⟩ = false := by
  intro settings start l elements branch σ kept sums pair
  have hstart : start.2.Reachable settings := .start settings _ _
  have hdocument : start.2.store.Known start.1 := Nat.zero_lt_one
  have hmet := Session.Met.reachable hstart
  have hσ : σ.Met settings :=
    .reachable (@Session.Reachable.step _ _ (.evaluate l start.1) hstart hdocument)
  have hbranch : σ.store.isBranch ⟨2⟩ = true := by decide +kernel
  have hknown := Store.known_of_isBranch hbranch
  have hunmarked := (Session.Plain.start (.int 5) []).unmarked
  have hkept : kept = (.ok ⟨3⟩, kept.2) := evaluate_of_toOption (by decide +kernel)
  have hsums : sums = (.ok ⟨7⟩, sums.2) := evaluate_of_toOption (by decide +kernel)
  have hpair : pair = (.ok ⟨2⟩, pair.2) := evaluate_of_toOption (by decide +kernel)
  have hlists : ⟨1⟩ ∈ (kept.2.store.data ⟨3⟩).children ∧
      ⟨4⟩ ∈ (sums.2.store.data ⟨7⟩).children ∧
      ⟨1⟩ ∈ (pair.2.store.data ⟨2⟩).children := by decide +kernel
  have hpairBranch : pair.2.store.isBranch ⟨2⟩ = true := by decide +kernel
  refine ⟨by decide +kernel, ⟨⟨hmet, hdocument⟩, hσ, hknown⟩, ?_, ?_, ?_⟩
  · exact (collected_not_ignored _ _ _ hσ hknown hkept).1 hbranch _ hlists.1
  · exact (collected_not_ignored _ _ _ hmet hdocument hsums).2.1 rfl (.binary .add (.integer 1))
      l rfl rfl _ hlists.2.1
  · exact (collected_not_ignored _ _ _ hmet hdocument hpair).2.2 (by decide)
      (fun r _ => hunmarked.isIgnored r) hpairBranch _ hlists.2.2

/-- An ignored result is collected where it is an element of a branch that is a result, where `??`
keeps the element of a branch, and where it is assigned. -/
theorem ignored_collected :
    let settings : Settings := ⟨Registry.builtins FileSystem.bare, fun _ => none, 10⟩
    let start := Session.start (.int 5) []
    let l : Expr := .branch [.call "ignore" [], .integer 1]
    let collects (e : Expr) : Option (Bool × List Bool) :=
      let (result, τ) := evaluate settings e start.1 start.2
      result.toOption.map fun b =>
        (τ.store.isBranch b, (τ.store.data b).children.map τ.store.isIgnored)
    collects (.chain [.branch [.integer 4], l]) = some (true, [true, false]) ∧
      collects (.binary .coalesce l (.integer 2)) = some (true, [true, false]) ∧
      collects (.assign (.branch [.integer 1, .integer 2]) none (.call "ignore" [])) =
        some (true, [true, true]) :=
  ⟨rfl, rfl, rfl⟩

end DocSelect
