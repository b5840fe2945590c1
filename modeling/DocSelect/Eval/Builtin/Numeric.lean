import DocSelect.Eval.Function

/-!
# Functions on numbers

Lengths, totals and extremes.
-/
namespace DocSelect.Builtin

open DocSelect.Action (ask read new refuse)

def len : Function := .unary "len" fun _ argument => do
  let n ← ask (·.length? argument)
  new (.int (Int64.ofNat n))

/-- Fails at the first argument that is no number. -/
def expectNumbers (function : String) : List Ref → Action Unit
  | [] => return ()
  | a :: rest => do
    let kind ← read (·.kind a)
    if kind.isNumeric then expectNumbers function rest
    else refuse (.notNumber function kind)

/-- The scalar that a node holds; a container counts as null. -/
def scalarOf (s : Store) (r : Ref) : Scalar :=
  match s.data r with
  | .scalar a => a
  | _ => .null

def addAll : Scalar → List Scalar → Except ValueError Scalar
  | sum, [] => .ok sum
  | sum, a :: rest => do addAll (← Arithmetic.add.scalars sum a) rest

/-- The sum of numbers, beginning from the integer zero. -/
def total (function : String) (arguments : List Ref) : Action Ref := do
  expectNumbers function arguments
  let sum ← ask fun s => addAll (.int 0) (arguments.map (scalarOf s))
  new (.scalar sum)

/-- The first of the nodes that no other one beats. -/
def best (s : Store) (wins : Ordering) : Ref → List Ref → Ref
  | champion, [] => champion
  | champion, a :: rest => best s wins (if s.compare a champion == wins then a else champion) rest

/-- The first number that wins against all others, as a floating point number if there is one among
them. -/
def extreme (function : String) (wins : Ordering) (first : Ref) (rest : List Ref) : Action Ref := do
  expectNumbers function (first :: rest)
  let s ← getThe Store
  let champion := best s wins first rest
  match scalarOf s champion with
  | .int i =>
    if (first :: rest).any fun a => s.kind a == .float then new (.float (Binary64.ofInt64 i))
    else modifyGet (·.deepCopy champion)
  | _ => modifyGet (·.deepCopy champion)

def add : Function := .variadic "add" fun _ first rest => total "add" (first :: rest)

def sum : Function := .variadic "sum" fun _ first rest => total "sum" (first :: rest)

def max : Function := .variadic "max" fun _ => extreme "max" .gt

def min : Function := .variadic "min" fun _ => extreme "min" .lt

def numeric : List Function := [len, add, sum, max, min]

end DocSelect.Builtin
