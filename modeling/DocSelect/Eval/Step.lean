import DocSelect.Eval.Function
import DocSelect.Eval.Passage
import DocSelect.Value.Sorting

/-!
# Steps

An expression means a step: from a subject to a result, with effects on the store and the variables.
What a step has done stays when it fails. This module holds the state that steps share, and what
every step does with a branch: it runs once for each element and collects the results in a new
branch.
-/
namespace DocSelect

abbrev Environment := String → Option String

structure Settings where
  functions : Registry
  environment : Environment
  /-- how many levels a search goes down before it gives up -/
  searchLimit : Nat

structure Session where
  store : Store
  bindings : Dict Ref
  deriving Inhabited

abbrev Eval := ReaderT Settings (ExceptT EvalError (Walk Session Sorting))

/-- From a subject to a result. -/
abbrev Step := Ref → Eval Ref

namespace Eval

/-- Runs an action on the session's store. -/
def act {α : Type} (a : Action α) : Eval α := do
  let session ← get
  let (result, store) := a.run.run session.store
  set { session with store := store }
  match result with
  | .ok r => return r
  | .error e => throw e

def read {α : Type} (f : Store → α) : Eval α := return f (← get).store

def ask {α : Type} (f : Store → Except ValueError α) : Eval α := do
  match f (← get).store with
  | .ok a => return a
  | .error e => throw (.value e)

/-- Notes that these keys are about to be compared. -/
def noteSort (keys : List Ref) : Eval Unit := do
  liftM (Walk.note ⟨(← get).store, keys⟩ : Walk Session Sorting Unit)

def new (d : Data) : Eval Ref := act (Action.new d)

def change (f : Store → Store) : Eval Unit :=
  modify fun session => { session with store := f session.store }

def newBranch (items : List Ref) : Eval Ref := do
  let r ← new (.slice items)
  change (·.markBranch r)
  return r

end Eval

namespace Step

def collect (f : Step) : List Ref → Eval (List Ref)
  | [] => return []
  | r :: rest => do
    let result ← f r
    -- taken now, before the steps for the other nodes can change it
    let contributed ← Eval.ask (·.flatten result)
    return contributed ++ (← collect f rest)

/-- Like `collect`, but leaves out results that are marked as ignored. -/
def collectKept (f : Step) : List Ref → Eval (List Ref)
  | [] => return []
  | r :: rest => do
    let result ← f r
    if (← Eval.read (·.isIgnored result)) then collectKept f rest
    else
      let contributed ← Eval.ask (·.flatten result)
      return contributed ++ (← collectKept f rest)

/-- Says in which kind of expression an error arose. -/
def within (node : String) (f : Step) : Step := fun subject =>
  tryCatch (f subject) fun e => throw (.within node e)

def broadcast (f : Step) : Step := fun subject => do
  if (← Eval.read (·.isBranch subject)) then
    -- outside `f`, so that a branch that is no slice fails without naming the expression
    let items ← Eval.ask (·.items? subject)
    Eval.newBranch (← collectKept f items)
  else f subject

def chain : List Step → Step
  | [], subject => return subject
  | f :: rest, subject => do chain rest (← f subject)

end Step

end DocSelect
