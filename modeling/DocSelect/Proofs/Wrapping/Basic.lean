import DocSelect.Proofs.Execution

/-!
# Which errors can arise

An error that arises in one of the parts of an evaluation leaves it as it is, unless it is caught.
So what is known of the errors of the parts is known of those of the whole. Errors that arise in the
whole itself, when it reads a value or refuses one, have no wrappers.
-/
namespace DocSelect

-- ---------------------------------------------------------------------------
-- Wrappers
-- ---------------------------------------------------------------------------

/-- What stands around the cause of an error: a kind of expression, or a function. -/
inductive Wrapper where
  | node (kind : String)
  | function (name : String)
  deriving DecidableEq

def Wrapper.around : Wrapper → EvalError → EvalError
  | node kind, x => .within kind x
  | function name, x => .inFunction name x

namespace EvalError

def wrappers : EvalError → List Wrapper
  | within kind source => .node kind :: source.wrappers
  | inFunction name source => .function name :: source.wrappers
  | _ => []

theorem foldr_wrappers : (x : EvalError) → x.wrappers.foldr Wrapper.around x.rootCause = x
  | within kind source => congrArg (within kind) source.foldr_wrappers
  | inFunction name source => congrArg (inFunction name) source.foldr_wrappers
  | value _ | undefinedVariable _ | undefinedFunction _ | argumentCount .. | invalidArgument _
  | notIterable .. | cannotSpread _ | invalidKey _ | invalidIndex _ | patternExpected _
  | unexpectedPattern | unsupportedOperator _ | malformedPattern | format _ | file _
  | searchTooDeep _ => rfl

def Bare (x : EvalError) : Prop := x.wrappers = []

theorem bare_rootCause : (x : EvalError) → x.rootCause.Bare
  | within _ source => source.bare_rootCause
  | inFunction _ source => source.bare_rootCause
  | value _ | undefinedVariable _ | undefinedFunction _ | argumentCount .. | invalidArgument _
  | notIterable .. | cannotSpread _ | invalidKey _ | invalidIndex _ | patternExpected _
  | unexpectedPattern | unsupportedOperator _ | malformedPattern | format _ | file _
  | searchTooDeep _ => rfl

end EvalError

variable {α β : Type}

-- ---------------------------------------------------------------------------
-- Actions
-- ---------------------------------------------------------------------------

/-- Whatever the store, an error of the action has no wrappers. -/
def Action.Bare (a : Action α) : Prop := ∀ s x, (a.exec s).1 = .error x → x.Bare

namespace Action.Bare

theorem of_ok {a : Action α} (h : ∀ s, ∃ r, (a.exec s).1 = .ok r) : a.Bare := by
  intro s x hx
  obtain ⟨r, hr⟩ := h s
  cases hr.symm.trans hx

theorem pure (a : α) : Bare (pure a) := of_ok fun _ => ⟨a, rfl⟩

theorem read (f : Store → α) : Bare (read f) := of_ok fun s => ⟨f s, rfl⟩

theorem get : Bare (MonadState.get : Action Store) := of_ok fun s => ⟨s, rfl⟩

theorem modifyGet (f : Store → α × Store) : Bare (modifyGet f : Action α) :=
  of_ok fun s => ⟨(f s).1, rfl⟩

theorem new (d : Data) : Bare (new d) := modifyGet _

theorem throw {x : EvalError} (hx : x.Bare) : Bare (throw x : Action α) := by
  intro s y hy
  cases hy
  exact hx

theorem refuse (problem : ArgumentProblem) : Bare (refuse problem : Action α) := throw rfl

theorem ask (f : Store → Except ValueError α) : Bare (ask f) := by
  intro s x hx
  rw [exec_ask] at hx
  cases hf : f s <;> rw [hf] at hx <;> cases hx
  rfl

theorem bind {a : Action α} {f : α → Action β} (ha : a.Bare) (hf : ∀ r, (f r).Bare) :
    (a >>= f).Bare := by
  intro s x hx
  have hfirst := ha s
  rw [exec_bind] at hx
  rcases hrun : a.exec s with ⟨y | r, t⟩ <;> rw [hrun] at hx hfirst
  · cases hx
    exact hfirst x rfl
  · exact hf r t x hx

end Action.Bare

-- ---------------------------------------------------------------------------
-- Evaluations
-- ---------------------------------------------------------------------------

def Eval.Throws (settings : Settings) (P : EvalError → Prop) (x : Eval α) : Prop :=
  ∀ σ e, (x.exec settings σ).1 = .error e → P e

abbrev Step.Throws (settings : Settings) (P : EvalError → Prop) (f : Step) : Prop :=
  ∀ subject, Eval.Throws settings P (f subject)

variable {settings : Settings} {P Q : EvalError → Prop}

namespace Eval.Throws

theorem mono {x : Eval α} (h : Throws settings P x) (hPQ : ∀ e, P e → Q e) :
    Throws settings Q x :=
  fun σ e he => hPQ e (h σ e he)

theorem of_ok {x : Eval α} (h : ∀ σ, ∃ r, (x.exec settings σ).1 = .ok r) :
    Throws settings P x := by
  intro σ e he
  obtain ⟨r, hr⟩ := h σ
  cases hr.symm.trans he

theorem pure (a : α) : Throws settings P (pure a) := of_ok fun _ => ⟨a, rfl⟩

theorem read (f : Store → α) : Throws settings P (read f) :=
  of_ok fun σ => ⟨f σ.store, rfl⟩

theorem get : Throws settings P (get : Eval Session) := of_ok fun σ => ⟨σ, rfl⟩

theorem noteSort (keys : List Ref) : Throws settings P (noteSort keys) :=
  of_ok fun _ => ⟨(), rfl⟩

theorem readSettings : Throws settings P (MonadReader.read : Eval Settings) :=
  of_ok fun _ => ⟨settings, rfl⟩

theorem change (f : Store → Store) : Throws settings P (change f) := of_ok fun _ => ⟨(), rfl⟩

theorem new (d : Data) : Throws settings P (new d) := of_ok fun σ => ⟨(σ.store.new d).1, rfl⟩

theorem bind {x : Eval α} {f : α → Eval β} (hx : Throws settings P x)
    (hf : ∀ r, Throws settings P (f r)) : Throws settings P (x >>= f) := by
  intro σ e he
  have hfirst := hx σ
  rw [exec_bind] at he
  rcases hrun : x.exec settings σ with ⟨y | r, τ⟩ <;> rw [hrun] at he hfirst
  · cases he
    exact hfirst e rfl
  · exact hf r τ e he

theorem newBranch (items : List Ref) : Throws settings P (newBranch items) :=
  bind (new _) fun _ => bind (change _) fun _ => pure _

theorem tryCatch {x : Eval α} {handle : EvalError → Eval α} (hx : Throws settings P x)
    (hf : ∀ e, P e → Throws settings Q (handle e)) : Throws settings Q (tryCatch x handle) := by
  intro σ e he
  have hfirst := hx σ
  rw [exec_tryCatch] at he
  rcases hrun : x.exec settings σ with ⟨y | r, τ⟩ <;> rw [hrun] at he hfirst
  · exact hf y (hfirst y rfl) τ e he
  · cases he

theorem throw {e : EvalError} (he : P e) : Throws settings P (throw e : Eval α) := by
  intro σ y hy
  cases hy
  exact he

theorem act {a : Action α} (ha : ∀ s x, (a.exec s).1 = .error x → P x) :
    Throws settings P (act a) := by
  intro σ e he
  rw [exec_act] at he
  exact ha σ.store e he

theorem ask (hP : ∀ e, e.Bare → P e) (f : Store → Except ValueError α) :
    Throws settings P (ask f) := by
  intro σ e he
  rw [exec_ask] at he
  cases hf : f σ.store <;> rw [hf] at he <;> cases he
  exact hP _ rfl

end Eval.Throws

end DocSelect
