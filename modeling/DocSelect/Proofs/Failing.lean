import DocSelect.Proofs.Broadcast.Operand
import DocSelect.Proofs.Listing
import DocSelect.Proofs.Quiet
import DocSelect.Proofs.Turns

/-!
# Assignments that fail

An assignment writes last, when nothing can fail any more. Where its target is one node, a failure
leaves what was there as it was, but for a variable without a value that is the target: it is null
from then on.
-/
namespace DocSelect

variable {settings : Settings} {σ τ υ ρ : Session} {t v e : Expr} {op : Option BinaryOp}
  {a c r subject : Ref} {name : String} {w : Concern} {x : EvalError}

def Session.lookup (settings : Settings) (σ : Session) (name : String) (subject : Ref) :
    Except EvalError Content :=
  let found := evaluate settings (.var name) subject σ
  found.1.map found.2.store.content

structure Session.Spared (settings : Settings) (t : Expr) (σ τ : Session) : Prop where
  content {r : Ref} : σ.store.Known r → τ.store.content r = σ.store.content r
  bindings : (∀ name, t.bindable? = some name → σ.bindings.contains name = true) →
    τ.bindings = σ.bindings
  bound {name : String} : t.bindable? = some name → σ.bindings.contains name = false →
    ∃ n, τ.bindings = σ.bindings.insert name n ∧ ¬ σ.store.Known n ∧
      τ.store.content n = .null
  lookup {name : String} {r : Ref} : σ.store.Single r →
    (t.bindable? = some name → σ.bindings.contains name = true) →
      τ.lookup settings name r = σ.lookup settings name r

-- ---------------------------------------------------------------------------
-- Names
-- ---------------------------------------------------------------------------

theorem Store.content_new (s : Store) (b : Scalar) :
    (s.new (.scalar b)).2.content (s.new (.scalar b)).1 = .scalar b :=
  (Holds.scalar (s.data_new_self _)).content_eq

/-- A name stands for the subject, for what it is bound to, or for what the environment has under
it. -/
theorem Session.lookup_eq (hr : σ.store.isBranch r = false) (name : String) :
    σ.lookup settings name r =
      if name = Step.subjectName then .ok (σ.store.content r)
      else
        match σ.bindings.find? name with
        | some n => .ok (σ.store.content n)
        | none =>
          match (settings.environment name).filter (!·.isEmpty) with
          | some text => .ok (.scalar (.string text))
          | none => .error (.within (Expr.var name).kindName (.undefinedVariable name)) := by
  rw [Session.lookup, evaluate_of_not_branch _ hr]
  by_cases hname : name = Step.subjectName
  · simp only [Expr.denote, Step.var, if_pos hname]
    rfl
  rw [if_neg hname]
  cases hfind : σ.bindings.find? name with
  | some n =>
    simp only [Expr.denote, Step.var, if_neg hname]
    rw [Eval.exec_bind, Eval.exec_get]
    simp only [hfind]
    rfl
  | none =>
    rw [OperandForm.exec_var_unbound hname hfind]
    cases (settings.environment name).filter (!·.isEmpty) with
    | none => rfl
    | some text =>
      exact congrArg Except.ok (σ.store.content_new (.string text))

/-- Names stand for the same where their values are the same nodes, and these hold the same. -/
theorem Session.lookup_congr (hσ : σ.Sound w) (hr : σ.store.Single r)
    (hbranch : τ.store.isBranch r = false)
    (hcontent : ∀ q, σ.store.Known q → τ.store.content q = σ.store.content q)
    (hfind : τ.bindings.find? name = σ.bindings.find? name) :
    τ.lookup settings name r = σ.lookup settings name r := by
  rw [lookup_eq hr.not_branch, lookup_eq hbranch, hfind, hcontent r hr.known]
  cases hvalue : σ.bindings.find? name with
  | none => rfl
  | some n =>
    simp only [hcontent n (hσ.bindings (List.mem_map_of_mem (σ.bindings.mem_of_find? hvalue)))]

theorem Session.find?_ready (h : t.bindable? = some name → σ.bindings.contains name = true) :
    (σ.ready t).bindings.find? name = σ.bindings.find? name := by
  unfold Session.ready Session.withBound
  split
  · rename_i n ht
    split
    · rfl
    · rename_i hunbound
      refine σ.bindings.find?_insert_of_ne _ fun heq => hunbound ?_
      rw [← heq] at ht
      rw [← heq, h ht]
  · rfl

theorem Session.content_ready (hσ : σ.Sound w) (hr : σ.store.Known r) (t : Expr) :
    (σ.ready t).store.content r = σ.store.content r := by
  unfold Session.ready Session.withBound
  split
  · split
    · rfl
    · exact (Later.tolerant.touch σ (.add _ _)).content_eq hσ hr
  · rfl

-- ---------------------------------------------------------------------------
-- Failures
-- ---------------------------------------------------------------------------

theorem later_of_writeInto_error (h : (Step.writeInto a op c).exec settings σ = (.error x, τ)) :
    σ.Later τ := by
  cases op with
  | none =>
    obtain ⟨q, hq⟩ := exec_writeInto settings a c σ
    cases hq.symm.trans h
  | some op =>
    have hmade : σ.Later ((Step.operate op a c).exec settings σ).2 :=
      Step.Leads.operate Session.Later.tolerant.lenient op a c σ
    rw [writeInto_some, Eval.exec_bind] at h
    rcases hoperate : (Step.operate op a c).exec settings σ with ⟨y | q, υ⟩ <;>
      rw [hoperate] at h hmade
    · cases h
      exact hmade
    · obtain ⟨b, hb⟩ := exec_writeInto settings a q υ
      cases hb.symm.trans h

/-- Where the target is not a branch, an assignment that fails has only bound the target. -/
theorem later_of_assign_error (hg : settings.Gentle) (ht : t.assignFree = true)
    (hv : v.assignFree = true) (hr : σ.store.isBranch r = false)
    (hsingle : ∀ a υ, evaluate settings t r (σ.ready t) = (.ok a, υ) →
      υ.store.isBranch a = false)
    (h : evaluate settings (.assign t op v) r σ = (.error x, τ)) : (σ.ready t).Later τ := by
  obtain ⟨y, hy⟩ : ∃ y, ((Expr.assign t op v).denote r).exec settings σ =
      (.error y, τ) := by
    rw [evaluate_of_not_branch _ hr] at h
    rcases hexec : ((Expr.assign t op v).denote r).exec settings σ with ⟨y | q, υ⟩ <;>
      rw [hexec] at h <;>
      cases h
    exact ⟨y, rfl⟩
  have hexec := OperandForm.exec_denote settings (.assign op v) trivial t r σ
  rw [OperandForm.on, hy, OperandForm.prepared] at hexec
  have hfound := evaluate_leads_of_assignFree Session.Later.tolerant hg ht r (σ.ready t)
  rcases hleft : evaluate settings t r (σ.ready t) with ⟨z | a, υ⟩ <;>
    rw [hleft] at hexec hfound <;>
    dsimp only at hexec
  · cases hexec
    exact hfound
  refine hfound.trans ?_
  have hmade := evaluate_leads_of_assignFree Session.Later.tolerant hg hv r υ
  rw [OperandForm.exec_applyAll_single (hsingle a υ hleft), OperandForm.apply, Eval.exec_bind,
    ← evaluate_eq_exec] at hexec
  rcases hvalue : evaluate settings v r υ with ⟨z | c, ψ⟩ <;> rw [hvalue] at hexec hmade <;>
    dsimp only at hexec
  · cases hexec
    exact hmade
  · exact hmade.trans (later_of_writeInto_error hexec.symm)

theorem Session.Spared.of_later (hσ : σ.Sound w) (h : (σ.ready t).Later τ) :
    σ.Spared settings t τ := by
  obtain ⟨hready, hon⟩ := hσ.ready t
  have hcontent {q : Ref} (hq : σ.store.Known q) : τ.store.content q = σ.store.content q :=
    (h.content_eq hready (hon.known hq)).trans (content_ready hσ hq t)
  refine ⟨hcontent, fun hall => ?_, fun {name} hname hunbound => ?_,
    fun {name q} hq hbound => ?_⟩
  · rw [h.bindings]
    cases hname : t.bindable? with
    | none => rw [ready_of_not_bindable hname]
    | some name => rw [ready_of_bindable hname, withBound_of_contains (hall name hname)]
  · have heq : σ.ready t = ⟨(σ.store.new .null).2,
        σ.bindings.insert name (σ.store.new .null).1⟩ := by
      rw [ready_of_bindable hname, withBound, hunbound]
      rfl
    refine ⟨(σ.store.new .null).1, by rw [h.bindings, heq], Nat.lt_irrefl _, ?_⟩
    have hknown : (σ.ready t).store.Known (σ.store.new .null).1 := by
      rw [heq]
      exact σ.store.known_add_self _
    rw [h.content_eq hready hknown, heq]
    exact σ.store.content_new .null
  · refine lookup_congr hσ hq ?_ (fun p => hcontent) (by rw [h.bindings, find?_ready hbound])
    rw [Store.isBranch, Store.marks, (h.node q (hon.known hq.known)).branch]
    exact (hon.single hq).not_branch

/-- In every session that a program meets, an assignment that fails does so on one node, which is
the subject if that is no branch. If the target is not a branch there, then from that turn on
everything is as it was, but for a variable without a value that is the target. -/
theorem failed_assignment (files : FileSystem) (environment : Environment) (limit : Nat)
    (hσ : σ.Met ⟨Registry.builtins files, environment, limit⟩) (hsub : σ.store.Known subject)
    (ht : t.assignFree = true) (hv : v.assignFree = true)
    (h : evaluate ⟨Registry.builtins files, environment, limit⟩ (.assign t op v) subject σ =
      (.error x, τ)) :
    let settings : Settings := ⟨Registry.builtins files, environment, limit⟩
    ∃ ρ r, σ.Turn settings (.assign t op v) subject ρ r ∧ ρ.store.Single r ∧
      evaluate settings (.assign t op v) r ρ = (.error x, τ) ∧
      (σ.store.isBranch subject = false → ρ = σ ∧ r = subject) ∧
      ((∀ a υ, evaluate settings t r (ρ.ready t) = (.ok a, υ) →
        υ.store.isBranch a = false) → ρ.Spared settings t τ) := by
  intro settings
  have hs := Settings.regular_builtins files environment limit
  have hsound := hσ.sound hs.keeping
  obtain ⟨ρ, r, hturn, hfail⟩ := Session.Turn.of_error hs.keeping hsound hsub h
  obtain ⟨hρ, -, hr⟩ := hturn.sound hs.keeping hsound hsub
  refine ⟨ρ, r, hturn, hr, hfail, hturn.eq_of_single, fun hsingle => .of_later hρ ?_⟩
  exact later_of_assign_error hs.keeping.gentle ht hv hr.not_branch hsingle hfail

/-- Assignments that fail on their value and on their sum: to a variable without a value, which is
null then, and to a property. -/
theorem failed_assignment_missing :
    let settings : Settings := ⟨Registry.builtins FileSystem.bare, fun _ => none, 10⟩
    let start := Session.start (.map [("a", .int 1)]) []
    let plain := evaluate settings (.assign (.var "x") none (.property "b")) start.1 start.2
    let sum := evaluate settings (.assign (.property "a") (some .add) .null) start.1 start.2
    (plain.1.toOption = none ∧ start.2.Spared settings (.var "x") plain.2 ∧
      plain.2.bindings.keys = ["x"]) ∧
      sum.1.toOption = none ∧ start.2.Spared settings (.property "a") sum.2 := by
  intro settings start plain sum
  have hstart := Session.Plain.start (.map [("a", .int 1)]) []
  have hmet : start.2.Met settings := .reachable (.start settings _ _)
  have hknown : start.2.store.Known start.1 := hstart.forest.root List.mem_cons_self
  have hsingle : start.2.store.isBranch start.1 = false := hstart.unmarked.isBranch _
  have hspared {t v : Expr} {op : Option BinaryOp} {q : Ref} (ht : t.assignFree = true)
      (hv : v.assignFree = true)
      (hfail : (evaluate settings (.assign t op v) start.1 start.2).1.toOption = none)
      (hfound : (evaluate settings t start.1 (start.2.ready t)).1.toOption = some q)
      (hq : (evaluate settings t start.1 (start.2.ready t)).2.store.isBranch q = false) :
      start.2.Spared settings t (evaluate settings (.assign t op v) start.1 start.2).2 := by
    obtain ⟨x, hx⟩ := evaluate_of_toOption_eq_none hfail
    obtain ⟨ρ, r, -, -, -, hsame, hspared⟩ := failed_assignment _ _ _ hmet hknown ht hv hx
    obtain ⟨rfl, rfl⟩ := hsame hsingle
    refine hspared fun a υ h => ?_
    obtain ⟨heq, rfl⟩ := Prod.mk.inj ((evaluate_of_toOption hfound).symm.trans h)
    obtain rfl : q = a := Except.ok.inj heq
    exact hq
  have hplain : plain.1.toOption = none := by decide +kernel
  have hsum : sum.1.toOption = none := by decide +kernel
  have hx : (evaluate settings (.var "x") start.1 (start.2.ready (.var "x"))).1.toOption =
      some ⟨2⟩ := by
    decide +kernel
  have ha : (evaluate settings (.property "a") start.1 (start.2.ready (.property "a"))).1.toOption =
      some ⟨0⟩ := by
    decide +kernel
  exact ⟨⟨hplain, hspared rfl rfl hplain hx (by decide +kernel), by decide +kernel⟩, hsum,
    hspared rfl rfl hsum ha (by decide +kernel)⟩

/-- A failed assignment leaves its target bound, so that the name no longer stands for what the
environment has under it. On the elements of a branch, those before the one that fails are
written. -/
theorem failed_assignment_leaves :
    let settings : Settings :=
      ⟨Registry.builtins FileSystem.bare, fun name => if name = "x" then some "y" else none, 10⟩
    let start := Session.start (.map [("a", .int 1)]) []
    let failed := evaluate settings (.assign (.var "x") none (.property "b")) start.1 start.2
    let list := Session.start (.slice [.map [("a", .int 1)], .map [("b", .int 2)]]) []
    let elements := (evaluate settings (.branch []) list.1 list.2).2
    let half := evaluate settings (.assign (.property "a") none (.integer 5)) ⟨5⟩ elements
    let x (σ : Session) : Option (List Char) :=
      (σ.lookup settings "x" start.1).toOption.map Json.compact
    (failed.1.toOption = none ∧ x start.2 = some "\"y\"".toList ∧
      x failed.2 = some "null".toList) ∧
      elements.store.isBranch ⟨5⟩ = true ∧ half.1.toOption = none ∧
      Json.compact (elements.store.content list.1) = "[\x7b\"a\":1\x7d,\x7b\"b\":2\x7d]".toList ∧
      Json.compact (half.2.store.content list.1) = "[\x7b\"a\":5\x7d,\x7b\"b\":2\x7d]".toList := by
  decide +kernel

end DocSelect
