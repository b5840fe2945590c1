import DocSelect.Eval.Step

/-!
# Building values

Arrays, branches, arguments and objects take the results of several expressions. A spread among them
contributes its elements, and a branch its own; what is stored is no longer a spread.
-/
namespace DocSelect

/-- What a function call or container takes from one result: the elements of a spread, or what the
result contributes itself. -/
def Store.contribution (s : Store) (r : Ref) : Except ValueError (List Ref) :=
  if s.isSpread r then do
    let items ← s.items? r
    return (← items.mapM s.flatten).flatten
  else s.flatten r

/-- What a call takes from one result: the elements of a spread or branch, or the result. -/
def Store.passed (s : Store) (r : Ref) : Except ValueError (List Ref) :=
  if s.isSpread r || s.isBranch r then s.items? r else .ok [r]

namespace Step

open Eval (ask read new)

def gather (take : Store → Ref → Except ValueError (List Ref)) :
    List Step → Ref → Eval (List Ref)
  | [], _ => return []
  | f :: rest, subject => do
    let result ← f subject
    let taken ← ask (take · result)
    return taken ++ (← gather take rest subject)

def array (items : List Step) : Step := fun subject => do
  new (.slice (← gather Store.contribution items subject))

/-- Several results; without expressions, the elements of the subject. -/
def branch (results : List Step) : Step := fun subject => do
  match results with
  | [] =>
    match (← read (·.data subject)) with
    | .slice items =>
      let contributed ← ask fun s => items.mapM s.flatten
      Eval.newBranch contributed.flatten
    | d => throw (.notIterable .branch d.kind)
  | _ => Eval.newBranch (← gather Store.contribution results subject)

def call (name : String) (arguments : List Step) : Step := fun subject => do
  match (← MonadReader.read).functions.find? name with
  | none => throw (.undefinedFunction name)
  | some f =>
    -- the name is looked up before any argument is evaluated
    let arguments ← gather Store.passed arguments subject
    tryCatch (Eval.act (f.call subject arguments)) fun e => throw (.inFunction name e)

inductive Entry where
  | spread (source : Option Step)
  | pair (key value : Step)

def Entry.addTo (object : Dict Ref) (subject : Ref) : Entry → Eval (Dict Ref)
  | .spread source => do
    let source ← match source with
      | some f => f subject
      | none => pure subject
    let entries ← ask (·.entries? source)
    return object.insertAll entries.entries
  | .pair key value => do
    let key ← key subject
    match (← read (·.data key)) with
    | .scalar (.string k) =>
      let value ← value subject
      -- the node itself is changed, also where it belongs to the document
      Eval.change (·.clearSpread value)
      return object.insert k value
    | d => throw (.invalidKey d.kind)

def addEntries : Dict Ref → List Entry → Ref → Eval (Dict Ref)
  | object, [], _ => return object
  | object, entry :: rest, subject => do
    addEntries (← entry.addTo object subject) rest subject

def object (entries : List Entry) : Step := fun subject => do
  new (.map (← addEntries Dict.empty entries subject))

/-- The first expression if the condition is true, the other one, or null, if it is not. -/
def conditional (condition consequence : Step) (alternative : Option Step) : Step :=
  fun subject => do
  let c ← condition subject
  if (← ask (·.bool? c)) then consequence subject
  else
    match alternative with
    | some f => f subject
    | none => new .null

end Step

end DocSelect
