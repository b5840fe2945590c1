import DocSelect.Proofs.Broadcast

/-!
# Evaluating the operand

An operator, a negation and an assignment evaluate their operand first, and go on with what it is.
Before that, an assignment to a variable without a value binds it to null, so that its name never
stands for what the environment has under it. Only `??` goes on where the operand is missing.
-/
namespace DocSelect

variable {settings : Settings} {σ τ : Session} {r : Ref} {t operand : Expr} {name : String}

namespace Session

def withBound (σ : Session) (name : String) : Session :=
  if σ.bindings.contains name then σ
  else ⟨(σ.store.new .null).2, σ.bindings.insert name (σ.store.new .null).1⟩

def ready (σ : Session) (target : Expr) : Session :=
  match target.bindable? with
  | some name => σ.withBound name
  | none => σ

theorem withBound_of_contains (h : σ.bindings.contains name = true) :
    σ.withBound name = σ := if_pos h

theorem ready_of_not_bindable (h : t.bindable? = none) : σ.ready t = σ := by rw [ready, h]

theorem ready_of_bindable (h : t.bindable? = some name) : σ.ready t = σ.withBound name := by
  rw [ready, h]

theorem Sound.withBound {w : Concern} (h : σ.Sound w) (name : String) :
    (σ.withBound name).Sound w ∧ σ.store.Onward (σ.withBound name).store := by
  unfold Session.withBound
  split
  · exact ⟨h, .refl _⟩
  · refine ⟨⟨h.store.new fun _ hc => absurd hc List.not_mem_nil, fun {r} hr => ?_⟩,
      σ.store.onward_add _⟩
    rcases Dict.mem_values_insert hr with hr | rfl
    · exact (σ.store.onward_add _).known (h.bindings hr)
    · exact σ.store.known_add_self _

theorem Sound.ready {w : Concern} (h : σ.Sound w) (t : Expr) :
    (σ.ready t).Sound w ∧ σ.store.Onward (σ.ready t).store := by
  unfold Session.ready
  split
  · exact h.withBound _
  · exact ⟨h, .refl _⟩

end Session

theorem exec_bindUnbound (settings : Settings) (name : String) (σ : Session) :
    (Step.bindUnbound name).exec settings σ = (.ok (), σ.withBound name) := by
  rw [Step.bindUnbound, Eval.exec_bind, Eval.exec_get]
  unfold Session.withBound
  dsimp only
  split <;> rfl

theorem writeInto_some (a : Ref) (op : BinaryOp) (c : Ref) :
    Step.writeInto a (some op) c = Step.operate op a c >>= Step.writeInto a none := by
  unfold Step.writeInto
  simp

namespace OperandForm

def prepared : OperandForm → Expr → Session → Session
  | assign _ _, operand, σ => σ.ready operand
  | _, _, σ => σ

theorem sound_prepared {w : Concern} (h : σ.Sound w) (form : OperandForm) (operand : Expr) :
    (form.prepared operand σ).Sound w ∧ σ.store.Onward (form.prepared operand σ).store := by
  cases form with
  | assign op value => exact h.ready operand
  | _ => exact ⟨h, .refl _⟩

def Strict : OperandForm → Prop
  | binary .coalesce _ => False
  | _ => True

variable (settings) in
theorem exec_denote (form : OperandForm) (hform : form.Strict) (operand : Expr) (r : Ref)
    (σ : Session) :
    ((form.on operand).denote r).exec settings σ =
      match evaluate settings operand r (form.prepared operand σ) with
      | (.error x, τ) => (.error x, τ)
      | (.ok a, τ) => (form.applyAll a r).exec settings τ := by
  have hrest (x : Eval Ref) (f : Ref → Eval Ref) (υ : Session)
      (hx : x.exec settings υ = evaluate settings operand r υ) :
      (x >>= f).exec settings υ =
        match evaluate settings operand r υ with
        | (.error x, τ) => (.error x, τ)
        | (.ok a, τ) => (f a).exec settings τ := by
    rw [Eval.exec_bind, hx]
    rcases evaluate settings operand r υ with ⟨_ | _, _⟩ <;> rfl
  cases form with
  | binary op right =>
    cases op
    case coalesce => exact hform.elim
    all_goals
      simp only [on, Expr.denote, Step.binary]
      exact hrest _ _ _ rfl
  | not =>
    simp only [on, Expr.denote, Step.not]
    exact hrest _ _ _ rfl
  | assign op value =>
    simp only [on, Expr.denote, Step.assign, prepared]
    cases hname : operand.bindable? with
    | none =>
      rw [Session.ready_of_not_bindable hname]
      exact hrest _ _ _ rfl
    | some name =>
      rw [Session.ready_of_bindable hname]
      show Eval.exec settings (Step.bindUnbound name >>= fun _ => _) σ = _
      rw [Eval.exec_bind, exec_bindUnbound]
      exact hrest _ _ _ rfl

theorem exec_applyAll_single {form : OperandForm} {a : Ref} (h : σ.store.isBranch a = false) :
    (form.applyAll a r).exec settings σ = (form.apply a r).exec settings σ := by
  rw [applyAll, Eval.exec_bind, Eval.exec_read]
  simp only [h, Bool.false_eq_true, if_false]

end OperandForm

end DocSelect
