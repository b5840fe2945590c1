/-!
# Computations that pass states

A computation on a state has a result and leaves a state. On the way it passes other moments: it
sets states, and it may note what it is about to do. They are remembered as a property of moments,
so that statements can be about every moment of a computation; running it does not keep them.
-/
namespace DocSelect

/-- What happens on the way: a state is set, or something is noted. -/
inductive Moment (σ ε : Type) where
  | state (s : σ)
  | note (e : ε)

instance {σ ε : Type} : Coe σ (Moment σ ε) := ⟨.state⟩

/-- A computation that has been done from some state on. -/
structure Passage (σ ε α : Type) where
  result : α
  /-- the state that it leaves -/
  state : σ
  /-- what has happened on the way, setting the last state included -/
  Passed : Moment σ ε → Prop

/-- Computations on a state. -/
def Walk (σ ε α : Type) := σ → Passage σ ε α

namespace Walk

variable {σ ε α β : Type}

def run (x : Walk σ ε α) (s : σ) : Passage σ ε α := x s

instance : Monad (Walk σ ε) where
  pure a := fun s => ⟨a, s, fun _ => False⟩
  bind x f := fun s =>
    let first := x s
    let second := f first.result first.state
    ⟨second.result, second.state, fun m => first.Passed m ∨ second.Passed m⟩

instance : MonadStateOf σ (Walk σ ε) where
  get := fun s => ⟨s, s, fun _ => False⟩
  set t := fun _ => ⟨⟨⟩, t, fun m => m = .state t⟩
  modifyGet f := fun s => ⟨(f s).1, (f s).2, fun m => m = .state (f s).2⟩

def note (e : ε) : Walk σ ε Unit := fun s => ⟨⟨⟩, s, fun m => m = .note e⟩

theorem run_pure (a : α) (s : σ) :
    (pure a : Walk σ ε α).run s = ⟨a, s, fun _ => False⟩ := rfl

theorem run_bind (x : Walk σ ε α) (f : α → Walk σ ε β) (s : σ) :
    (x >>= f).run s =
      ⟨((f (x.run s).result).run (x.run s).state).result,
        ((f (x.run s).result).run (x.run s).state).state,
        fun m =>
          (x.run s).Passed m ∨ ((f (x.run s).result).run (x.run s).state).Passed m⟩ := rfl

instance : LawfulMonad (Walk σ ε) :=
  LawfulMonad.mk' (Walk σ ε)
    (by
      intro α x
      funext s
      show (⟨(x s).result, (x s).state, fun m => (x s).Passed m ∨ False⟩ :
        Passage σ ε α) = x s
      simp only [or_false])
    (by
      intro α β a f
      funext s
      show (⟨(f a s).result, (f a s).state, fun m => False ∨ (f a s).Passed m⟩ :
        Passage σ ε β) = f a s
      simp only [false_or])
    (by
      intro α β γ x f g
      funext s
      simp only [bind, or_assoc])

end Walk

end DocSelect
