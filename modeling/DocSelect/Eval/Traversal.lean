import DocSelect.Eval.Step
import DocSelect.Expr.Operator
import DocSelect.Value.Descent

/-!
# Going over collections

Mapping, filtering and sorting go over the elements of a slice. Searching goes over all parts of a
value, each before its own parts, and reads them from the store as it goes, because the predicate
may change what it is shown. That is why a search counts the levels that it goes down.
-/
namespace DocSelect.Step

open Eval (ask read new noteSort)

def elements (iteration : Iteration) (subject : Ref) : Eval (List Ref) := do
  match (← read (·.data subject)) with
  | .slice items => return items
  | d => throw (.notIterable iteration d.kind)

/-- The results for some nodes; a result that is stored is no longer a spread. -/
def results (f : Step) : List Ref → Eval (List Ref)
  | [] => return []
  | r :: rest => do
    let result ← f r
    Eval.change (·.clearSpread result)
    return result :: (← results f rest)

def map (f : Step) : Step := fun subject => do
  new (.slice (← results f (← elements .map subject)))

def runAll (f : Step) : List Ref → Eval Unit
  | [] => return ()
  | r :: rest => do
    let _ ← f r
    runAll f rest

def each (f : Step) : Step := fun subject => do
  runAll f (← elements .each subject)
  return subject

def kept (f : Step) : List Ref → Eval (List Ref)
  | [] => return []
  | r :: rest => do
    let result ← f r
    if (← ask (·.bool? result)) then return r :: (← kept f rest) else kept f rest

def filter (f : Step) : Step := fun subject => do
  new (.slice (← kept f (← elements .filter subject)))

def sortKeys (f : Step) : List Ref → Eval (List Ref)
  | [] => return []
  | r :: rest => do
    let key ← f r
    return key :: (← sortKeys f rest)

/-- The elements of the subject in the order of their keys, all of which are computed first. -/
def sortBy (key : Step) (direction : SortDirection) : Step := fun subject => do
  let items ← elements .sort subject
  let keys ← sortKeys key items
  -- laid out only now: computing a later key may have changed an earlier one
  let trees ← read fun s => keys.map s.tree
  noteSort keys
  let precedes (a b : Tree × Ref) : Bool := a.1.precedes (direction == .descending) b.1
  new (.slice ((sortStable precedes (trees.zip items)).map Prod.snd))

/-- Whether a predicate is true on a node; a miss counts as false. -/
def holdsOn (f : Step) (r : Ref) : Eval Bool := do
  let result ← tryCatch (some <$> f r) fun e => if e.isMiss then pure none else throw e
  -- a result that is no boolean is an error and not a miss
  match result with
  | some result => ask (·.bool? result)
  | none => return false

/-- Searches the parts of each of some nodes after the node itself; `below` searches one node's
parts. -/
def searchNodes (f : Step) (below : Ref → Eval (List Ref)) : List Ref → Eval (List Ref)
  | [] => return []
  | r :: rest => do
    let found ← holdsOn f r
    let inside ← below r
    return (if found then [r] else []) ++ inside ++ (← searchNodes f below rest)

/-- The parts of a node on which a predicate is true, down to `levels` levels. -/
def searchBelow (f : Step) : (levels : Nat) → Ref → Eval (List Ref)
  | 0, r => do
    match (← read (·.data r)).children with
    | [] => return []
    | _ :: _ => throw (.searchTooDeep (← MonadReader.read).searchLimit)
  | levels + 1, r => do searchNodes f (searchBelow f levels) (← read (·.data r)).children

def search (f : Step) : Step := fun subject => do
  new (.slice (← searchBelow f (← MonadReader.read).searchLimit subject))

def descend (target : DescentTarget) : Step := fun subject => do
  new (.slice (← read fun s => (s.tree subject).found target))

end DocSelect.Step
