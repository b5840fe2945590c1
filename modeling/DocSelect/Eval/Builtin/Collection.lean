import DocSelect.Eval.Function

/-!
# Functions on collections

Look-ups in the subject, merging, reversing and joining.
-/
namespace DocSelect.Builtin

open DocSelect.Action (ask read new refuse)

/-- Whether a map has a key, or a slice a position. A key of another kind is never there. -/
def hasKey (s : Store) (subject key : Ref) : Bool :=
  match s.data subject, s.data key with
  | .map entries, .scalar (.string k) => entries.contains k
  | .slice items, .scalar (.int i) => decide (0 ≤ i.toInt) && decide (i.toInt < items.length)
  | _, _ => false

def has : Function := .unary "has" fun subject key => do
  new (.bool (← read (hasKey · subject key)))

/-- The node under a key or at an index; false where the kind of the key does not suit the
subject. -/
def lookUp (subject key : Ref) : Action Ref := do
  let s ← MonadState.get
  match s.data subject, s.data key with
  | .map _, .scalar (.string k) => ask (·.key? subject k)
  | .slice _, .scalar (.int i) => ask (·.item? subject i)
  | _, .scalar (.string _) => new (.bool false)
  | _, .scalar (.int _) => new (.bool false)
  | _, k => throw (.invalidIndex k.kind)

def get : Function := .unary "get" lookUp

def contains : Function := .unary "contains" fun subject argument => do
  let items ← ask (·.items? subject)
  new (.bool (← read fun s => items.any fun item => s.equal item argument))

def mergeAll (s : Store) : Dict Ref → List Ref → Except ArgumentProblem (Dict Ref)
  | merged, [] => .ok merged
  | merged, a :: rest =>
    match s.data a with
    | .map entries => mergeAll s (merged.insertAll entries.entries) rest
    | d => .error (.notMap d.kind)

def merge : Function := .variadic "merge" fun _ first rest => do
  match (← read (mergeAll · Dict.empty (first :: rest))) with
  | .ok merged => new (.map merged)
  | .error problem => refuse problem

def reverse : Function := .unary "reverse" fun _ argument => do
  let kind ← read (·.kind argument)
  if kind = .slice ∨ kind = .string then
    new (← ask (·.range? argument (some (-1)) (some 0)))
  else refuse (.notReversible kind)

/-- The texts of the parts to join; `place` is that of the first. -/
def joinable (s : Store) : (place : Nat) → List Ref → Except ArgumentProblem (List String)
  | _, [] => .ok []
  | place, part :: rest =>
    match s.data part with
    | .scalar (.string t) => (joinable s (place + 1) rest).map (t :: ·)
    | d => .error (.notJoinable place d.kind)

/-- What to join: the parts, the elements of a single slice, or those of the subject if there are no
parts. -/
def joinParts (s : Store) (subject : Ref) : List Ref → Except ValueError (List Ref)
  | [] => s.items? subject
  | [single] =>
    match s.data single with
    | .slice items => .ok items
    | _ => .ok [single]
  | parts => .ok parts

def join : Function := .variadic "join" fun subject first rest => do
  let separator ← ask (·.string? first)
  let parts ← ask (joinParts · subject rest)
  match (← read (joinable · 1 parts)) with
  | .ok texts => new (.string (separator.intercalate texts))
  | .error problem => refuse problem

/-- Marks the subject as left out of the branch that collects it. -/
def ignore : Function := .ofSubject "ignore" fun subject => do
  modify (·.markIgnored subject)
  return subject

def collections : List Function := [has, get, contains, merge, reverse, join, ignore]

end DocSelect.Builtin
