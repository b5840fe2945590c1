import DocSelect.Proofs.Assignment.Constant
import DocSelect.Proofs.Order
import DocSelect.Proofs.Reachable

/-!
# Evaluation comes to an end

Evaluation follows the expression, and a search also follows the document. If the predicates of
searches write nothing, every evaluation has an outcome that does not change with the number of
levels that searches may go down, once that is high enough. A sort asks for an order of its keys:
where integers and floating point numbers are mixed, comparing them may give none, and then nothing
is said of the sort.

A predicate that gives every node it is shown a new part makes a search go down for ever: at every
number of levels there is one more.
-/
namespace DocSelect

/-- Where searches have predicates without assignments, and sorts have keys that are in an order,
evaluation ends with one value or error. No sort on the way can stop it. -/
theorem evaluation_ends (files : FileSystem) (environment : Environment) (limit : Nat)
    {σ : Session} (hσ : σ.Reachable ⟨Registry.builtins files, environment, limit⟩) {e : Expr}
    (he : e.all Concern.ending.admits = true) {subject : Ref} (hsub : σ.store.Known subject)
    (hsorts : ∀ m sort,
      (e.step subject).Sorts ⟨Registry.builtins files, environment, m⟩ σ sort →
        sort.Transitive) :
    ∃ n outcome, (∀ err, outcome.1 = .error err → err.gaveUp = false) ∧ ∀ m, n ≤ m →
      evaluate ⟨Registry.builtins files, environment, m⟩ e subject σ = outcome ∧
        ∀ sort, (e.step subject).Sorts ⟨Registry.builtins files, environment, m⟩ σ sort →
          sort.Ordered := by
  have hs := Settings.keeping_builtins .ending files environment limit
  have hsound : σ.Sound .ending :=
    (hσ.sound (Settings.keeping_builtins .soundness files environment limit)).of_settled nofun
  have hruns := e.runs_lift hs he subject σ hsound hsub
  obtain ⟨n, result, τ, herr, h⟩ := hruns.ends rfl
  refine ⟨n, (result, τ), herr, fun m hm => ⟨h m m hm hm, fun sort hsort => ?_⟩⟩
  have hstore : sort.store.Sound .ending := (hruns.keeps m nofun).passed _ hsort
  exact (hsorts m sort hsort).ordered hstore.grounded

/-- Sorting two numbers compares them as they are, and ends. -/
theorem evaluation_ends_sortBy :
    let settings (limit : Nat) : Settings :=
      ⟨Registry.builtins FileSystem.bare, fun _ => none, limit⟩
    let start := Session.start (.slice [.int 2, .int 1]) []
    let e : Expr := .sortBy (.var Step.subjectName) .ascending
    start.2.Reachable (settings 0) ∧ e.all Concern.ending.admits = true ∧
      start.2.store.Known start.1 ∧
      (∀ m sort, (e.step start.1).Sorts (settings m) start.2 sort → sort.Transitive) ∧
      ∃ n outcome, (∀ err, outcome.1 = .error err → err.gaveUp = false) ∧ ∀ m, n ≤ m →
        evaluate (settings m) e start.1 start.2 = outcome ∧
          ∀ sort, (e.step start.1).Sorts (settings m) start.2 sort → sort.Ordered := by
  intro settings start e
  have hσ : start.2.Reachable (settings 0) := .start (settings 0) _ _
  have he : e.all Concern.ending.admits = true := by decide
  have hknown : start.2.store.Known start.1 := by
    show 2 < 3
    decide
  have hsingle (r : Ref) : start.2.store.isBranch r = false := by
    rw [Store.isBranch, (Session.Plain.start _ []).unmarked r]
    rfl
  have hdata : start.2.store.data start.1 = .slice [⟨0⟩, ⟨1⟩] := rfl
  have hsorts (m : Nat) (sort : Sorting) (h : (e.step start.1).Sorts (settings m) start.2 sort) :
      sort.Transitive := by
    have hkey (r : Ref) :
        ((Expr.var Step.subjectName).step r).exec (settings m) start.2 = (.ok r, start.2) ∧
          ¬ ((Expr.var Step.subjectName).step r).Moments (settings m) start.2 (.note sort) := by
      rw [moments_step (hsingle r), ← evaluate_eq_exec, evaluate_eq_ok_iff _ (hsingle r),
        Expr.denote, Step.var, if_pos rfl]
      exact ⟨rfl, Eval.moments_pure (settings m) r start.2⟩
    -- each element is its own key
    have heq : sort = ⟨start.2.store, [⟨0⟩, ⟨1⟩]⟩ := by
      rw [Eval.Sorts, moments_step (hsingle _), Expr.denote, Step.sortBy, ← Expr.step] at h
      simpa [Step.elements, Step.sortKeys, -bind_pure_comp, Eval.moments_bind, Eval.moments_read,
        Eval.exec_bind, Eval.moments_noteSort, Eval.moments_new, hdata, hkey] using h
    rw [heq]
    decide +kernel
  exact ⟨hσ, he, hknown, hsorts, evaluation_ends _ _ _ hσ he hknown hsorts⟩

-- ---------------------------------------------------------------------------
-- A search without an end
-- ---------------------------------------------------------------------------

def growth : Expr :=
  .assign (.var Step.subjectName) none (.object [.pair (.string "a") (.integer 1)])

def growing : Expr := .chain [growth, .boolean false]

variable {settings : Settings} {σ τ : Session} {r q : Ref}

theorem Store.Holds.exists_part {s : Store} {key : String} {c : Content}
    (h : s.Holds r (.map [(key, c)])) :
    ∃ q, (s.data r).children = [q] ∧ s.isScalar r = false ∧ s.Holds q c := by
  have heq := h.content_eq
  rw [h.grounded.content_eq] at heq
  cases hd : s.data r with
  | scalar => rw [hd] at heq; cases heq
  | slice => rw [hd] at heq; cases heq
  | map entries =>
    rw [hd, Data.contentWith, Content.map.injEq] at heq
    obtain ⟨e, hentries, he⟩ := List.map_eq_singleton_iff.1 heq
    have hchildren : (Data.map entries).children = [e.2] := by
      rw [Data.children, Dict.values, hentries, List.map_singleton]
    have hscalar : s.isScalar r = false := by
      rw [Store.isScalar, Store.kind, hd]
      rfl
    refine ⟨e.2, hchildren, hscalar, h.grounded.part ?_, (Prod.mk.inj he).2⟩
    rw [Part, hd, hchildren]
    exact List.mem_cons_self

theorem Store.Sound.single_of_holds {w : Concern} {s : Store} (h : s.Sound w) {a : Scalar}
    (hr : s.Known r) (hh : s.Holds r (.scalar a)) : s.Single r := by
  refine ⟨hr, Bool.eq_false_iff.2 fun hb => ?_⟩
  obtain ⟨items, hd, -⟩ := h.flat r hb
  rw [hh.data_eq] at hd
  cases hd

theorem evaluate_growth (hs : settings.Keeping .soundness) (h : σ.Sound .soundness)
    (hq : σ.store.Single q) :
    ∃ τ c, evaluate settings growth q σ = (.ok q, τ) ∧ τ.Sound .soundness ∧
      τ.store.Single q ∧ (τ.store.data q).children = [c] ∧ τ.store.Single c := by
  have hsubject : evaluate settings (.var Step.subjectName) q σ = (.ok q, σ) := by
    refine evaluate_ok _ hq.not_branch ?_
    rw [Expr.denote, Step.var, if_pos rfl, Eval.exec_pure]
  obtain ⟨a, υ, hvalue, hυ, ha⟩ : Makes settings
      (Expr.step (.object [.pair (.string "a") (.integer 1)]) q) σ
        (.map [("a", .scalar (.int 1))]) :=
    makes_constant _ rfl hq.not_branch hq.known
  let τ : Session := { υ with store := υ.store.set q a }
  have hwritten : τ.store.Holds q (.map [("a", .scalar (.int 1))]) := by
    rw [← (ha.holds (.refl υ)).content_eq]
    exact υ.store.holds_set_self (Nat.lt_of_lt_of_le hq.known hυ.size_le) a
  obtain ⟨c, hchildren, hscalar, hc⟩ := hwritten.exists_part
  have hrun : evaluate settings growth q σ = (.ok q, τ) :=
    evaluate_assign_of_write rfl hq.not_branch hsubject hq.not_branch hvalue
      (exec_writeInto_of_container hscalar)
  obtain ⟨-, hτ, hon, -⟩ := h.outcome hs growth hq.known
  rw [← evaluate_eq_exec, hrun] at hτ hon
  have hpart : τ.store.Part c q := by
    rw [Store.Part, hchildren]
    exact List.mem_cons_self
  exact ⟨τ, c, hrun, hτ, hon.single hq, hchildren,
    hτ.store.single_of_holds (hτ.store.part_known hpart) hc⟩

theorem holdsOn_growing (hs : settings.Keeping .soundness) (h : σ.Sound .soundness)
    (hq : σ.store.Single q) :
    ∃ τ c, (Step.holdsOn growing.step q).exec settings σ = (.ok false, τ) ∧
      τ.Sound .soundness ∧ (τ.store.data q).children = [c] ∧ τ.store.Single c := by
  obtain ⟨υ, c, hgrowth, hυ, hqυ, hchildren, hc⟩ := evaluate_growth hs h hq
  let τ : Session := { υ with store := (υ.store.new (.bool false)).2 }
  have hfalse : evaluate settings (.boolean false) q υ =
      (.ok (υ.store.new (.bool false)).1, τ) :=
    evaluate_ok _ hqυ.not_branch (by rw [Expr.denote, Eval.exec_new])
  have hext : υ.Extends τ := .new υ _
  obtain ⟨-, hτ, hon, -⟩ := hυ.outcome hs (.boolean false) hqυ.known
  rw [← evaluate_eq_exec, hfalse] at hτ hon
  have hrun : (growing.step q).exec settings σ = (.ok (υ.store.new (.bool false)).1, τ) := by
    refine evaluate_ok growing hq.not_branch ?_
    have hgrowth' : (growth.lift growth.denote q).exec settings σ = (.ok q, υ) := hgrowth
    have hfalse' : ((Expr.boolean false).lift (Expr.boolean false).denote q).exec settings υ =
      (.ok (υ.store.new (.bool false)).1, τ) := hfalse
    rw [growing, Expr.denote, Expr.denoteAll, Expr.denoteAll, Expr.denoteAll,
      Step.chain, Eval.exec_bind, hgrowth']
    dsimp only
    rw [Step.chain, Eval.exec_bind, hfalse']
    rfl
  have hbool : τ.store.bool? (υ.store.new (.bool false)).1 = .ok false := by
    have hdata : τ.store.data (υ.store.new (.bool false)).1 = .bool false := by
      show ((υ.store.add ⟨.bool false, Marks.none⟩).2.node _).data = .bool false
      rw [Store.new, Store.node_add_self]
    rw [Store.bool?, hdata]
    rfl
  refine ⟨τ, c, ?_, hτ, by rw [hext.data hqυ.known, hchildren], hon.single hc⟩
  simp only [Step.holdsOn, map_eq_pure_bind, Eval.exec_bind, Eval.exec_tryCatch,
    hrun, Eval.exec_pure, Eval.exec_ask, hbool, Except.mapError]

theorem searchBelow_growing (hs : settings.Keeping .soundness) (levels : Nat)
    (h : σ.Sound .soundness) (hr : (σ.store.data r).children = [q]) (hq : σ.store.Single q) :
    ∃ e τ, (Step.searchBelow growing.step levels r).exec settings σ = (.error e, τ) ∧
      e.gaveUp = true := by
  induction levels generalizing σ r q with
  | zero =>
    refine ⟨.searchTooDeep settings.searchLimit, σ, ?_, rfl⟩
    unfold Step.searchBelow
    simp [Eval.exec_bind, hr]
  | succ levels ih =>
    obtain ⟨υ, c, hholds, hυ, hchildren, hc⟩ := holdsOn_growing hs h hq
    obtain ⟨e, τ, hbelow, he⟩ := ih hυ hchildren hc
    refine ⟨e, τ, ?_, he⟩
    unfold Step.searchBelow
    simp [Eval.exec_bind, hr, Step.searchNodes, hholds, hbelow]

theorem evaluate_search_growing (hs : settings.Keeping .soundness) (h : σ.Sound .soundness)
    (hr : σ.store.Single r) (hchildren : (σ.store.data r).children = [q])
    (hq : σ.store.Single q) :
    ∃ e τ, evaluate settings (.search growing) r σ = (.error e, τ) ∧ e.gaveUp = true := by
  obtain ⟨e, τ, hbelow, he⟩ := searchBelow_growing hs settings.searchLimit h hchildren hq
  have hbelow' : (Step.searchBelow (growing.lift growing.denote) settings.searchLimit r).exec
    settings σ = (.error e, τ) := hbelow
  refine ⟨.within (Expr.kindName (.search growing)) e, τ, ?_, he⟩
  rw [evaluate_of_not_branch _ hr.not_branch, Expr.denote, Step.search, Eval.exec_bind,
    Eval.exec_settings]
  dsimp only
  rw [Eval.exec_bind, hbelow']

/-- The search of a document with one element is not done after any number of levels. -/
theorem search_without_end :
    let settings (limit : Nat) : Settings :=
      ⟨Registry.builtins FileSystem.bare, fun _ => none, limit⟩
    let start := Session.start (.slice [.int 1]) []
    ¬ ∃ n outcome, (∀ err, outcome.1 = .error err → err.gaveUp = false) ∧
      ∀ m, n ≤ m → evaluate (settings m) (.search growing) start.1 start.2 = outcome := by
  rintro settings start ⟨n, outcome, hended, houtcome⟩
  have hs := Settings.keeping_builtins .soundness FileSystem.bare (fun _ => none) n
  have hsound := (Session.Reachable.start (settings n) (.slice [.int 1]) []).sound hs
  have hroot : start.2.store.Single start.1 := by
    refine ⟨?_, by decide⟩
    show 1 < 2
    decide
  have hpart : start.2.store.Single ⟨0⟩ := by
    refine ⟨?_, by decide⟩
    show 0 < 2
    decide
  obtain ⟨e, τ, hrun, he⟩ := evaluate_search_growing hs hsound hroot (by decide) hpart
  have hfalse := hended e (by rw [← houtcome n (Nat.le_refl n), hrun])
  rw [he] at hfalse
  cases hfalse

end DocSelect
