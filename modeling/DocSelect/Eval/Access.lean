import DocSelect.Eval.Step

/-!
# Looking things up

Properties, indices, ranges and variables. Look-ups give the nodes of the document themselves.
-/
namespace DocSelect.Step

open Eval (ask read new)

def property (name : String) : Step := fun subject => ask (·.key? subject name)

def index (key : Step) : Step := fun subject => do
  let key ← key subject
  match (← read (·.data key)) with
  | .scalar (.string k) => ask (·.key? subject k)
  | .scalar (.int i) => ask (·.item? subject i)
  | d => throw (.invalidIndex d.kind)

def bound (f : Option Step) (subject : Ref) : Eval (Option Int64) :=
  match f with
  | none => return none
  | some f => do
    let r ← f subject
    return some (← ask (·.int? r))

def range (start stop : Option Step) : Step := fun subject => do
  let start ← bound start subject
  let stop ← bound stop subject
  new (← ask (·.range? subject start stop))

/-- The name that stands for the subject. -/
def subjectName : String := "this"

/-- The value of a variable. A name without one falls back to an environment variable that is not
empty. -/
def var (name : String) : Step := fun subject => do
  if name = subjectName then return subject
  else
    match (← get).bindings.find? name with
    | some r => return r
    | none =>
      match ((← MonadReader.read).environment name).filter (!·.isEmpty) with
      | some text => new (.string text)
      | none => throw (.undefinedVariable name)

def spread : Step := fun subject => do
  let d ← read (·.data subject)
  match d with
  | .scalar a => throw (.cannotSpread a.kind)
  | _ =>
    let r ← new (.slice d.children)
    Eval.change (·.markSpread r)
    return r

end DocSelect.Step
