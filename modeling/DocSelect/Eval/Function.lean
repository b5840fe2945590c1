import DocSelect.Eval.Error
import DocSelect.Value.Arithmetic
import DocSelect.Value.Order
import DocSelect.Value.Range

/-!
# Functions

A function gets the subject of its call and its arguments, and works on the store. An action that
fails leaves what it has done to the store before.
-/
namespace DocSelect

abbrev Action := ExceptT EvalError (StateM Store)

namespace Action

def read {α : Type} (f : Store → α) : Action α := return f (← get)

/-- Reads the store where there may be nothing to read. -/
def ask {α : Type} (f : Store → Except ValueError α) : Action α := do
  match f (← get) with
  | .ok a => return a
  | .error e => throw (.value e)

def new (d : Data) : Action Ref := modifyGet (·.new d)

def build (c : Content) : Action Ref := modifyGet (Store.build c)

def refuse {α : Type} (problem : ArgumentProblem) : Action α := throw (.invalidArgument problem)

end Action

structure Function where
  name : String
  arity : Arity
  run : (subject : Ref) → (arguments : List Ref) → Action Ref

namespace Function

def miscount (f : Function) (count : Nat) : EvalError := .argumentCount f.name f.arity count

/-- Checks the number of arguments, and runs. -/
def call (f : Function) (subject : Ref) (arguments : List Ref) : Action Ref :=
  if f.arity.accepts arguments.length then f.run subject arguments
  else throw (f.miscount arguments.length)

def ofSubject (name : String) (run : (subject : Ref) → Action Ref) : Function where
  name := name
  arity := .exactly 0
  run subject _ := run subject

def unary (name : String) (run : (subject argument : Ref) → Action Ref) : Function where
  name := name
  arity := .exactly 1
  run subject
    | [a] => run subject a
    | arguments => throw (.argumentCount name (.exactly 1) arguments.length)

def binary (name : String) (run : (first second : Ref) → Action Ref) : Function where
  name := name
  arity := .exactly 2
  run _
    | [a, b] => run a b
    | arguments => throw (.argumentCount name (.exactly 2) arguments.length)

def variadic (name : String) (run : (subject first : Ref) → (rest : List Ref) → Action Ref) :
    Function where
  name := name
  arity := .atLeast 1
  run subject
    | a :: rest => run subject a rest
    | [] => throw (.argumentCount name (.atLeast 1) 0)

end Function

abbrev Registry := Dict Function

namespace Registry

/-- Adds a function under its name; the result is the one it replaces. -/
def register (g : Registry) (f : Function) : Option Function × Registry :=
  (g.find? f.name, g.insert f.name f)

/-- Drops a function; the result is the one dropped. -/
def unregister (g : Registry) (name : String) : Option Function × Registry :=
  (g.find? name, g.erase name)

def names (g : Registry) : List String := g.keys.mergeSort fun a b => decide (¬ b < a)

def ofList (functions : List Function) : Registry :=
  Dict.ofList (functions.map fun f => (f.name, f))

end Registry

end DocSelect
