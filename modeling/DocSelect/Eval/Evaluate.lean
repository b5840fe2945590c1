import DocSelect.Eval.Access
import DocSelect.Eval.Construction
import DocSelect.Eval.Operation
import DocSelect.Eval.Traversal

/-!
# The meaning of expressions

`Expr.denote` gives each expression the step that it means for a single subject, by recursion on the
expression. `Expr.step` is that step for any subject: it runs once for each element of a branch, and
an error that arises in it says in which kind of expression.
-/
namespace DocSelect

namespace Expr

def lift (e : Expr) (f : Step) : Step := Step.broadcast (Step.within e.kindName f)

def pattern? : Expr → Option String
  | regex p => some p
  | _ => none

/-- The variable that an assignment to an expression may have to bind. -/
def bindable? : Expr → Option String
  | var name => if name = Step.subjectName then none else some name
  | _ => none

mutual

/-- The step of an expression on a subject that is no branch. -/
def denote : Expr → Step
  | float x => fun _ => Eval.new (.float x)
  | integer i => fun _ => Eval.new (.int i)
  | string s => fun _ => Eval.new (.string s)
  | boolean b => fun _ => Eval.new (.bool b)
  | null => fun _ => Eval.new .null
  | regex _ => fun _ => throw .unexpectedPattern
  | property name => Step.property name
  | index key => Step.index (lift key (denote key))
  | range start stop => Step.range (denoteOption start) (denoteOption stop)
  | var name => Step.var name
  | binary op left right =>
    let left := lift left (denote left)
    let pattern := pattern? right
    let right := lift right (denote right)
    match op with
    | .coalesce => Step.coalesce left right
    | _ => Step.binary op pattern left right
  | not operand => Step.not (lift operand (denote operand))
  | assign target op value =>
    Step.assign (bindable? target) (lift target (denote target)) op (lift value (denote value))
  | call function arguments => Step.call function (denoteAll arguments)
  | object entries => Step.object (denoteEntries entries)
  | array items => Step.array (denoteAll items)
  | chain steps => Step.chain (denoteAll steps)
  | spread => Step.spread
  | group inner => lift inner (denote inner)
  | conditional condition consequence alternative =>
    Step.conditional (lift condition (denote condition)) (lift consequence (denote consequence))
      (denoteOption alternative)
  | branch results => Step.branch (denoteAll results)
  | map step => Step.map (lift step (denote step))
  | each step => Step.each (lift step (denote step))
  | filter predicate => Step.filter (lift predicate (denote predicate))
  | search predicate => Step.search (lift predicate (denote predicate))
  | sortBy key direction => Step.sortBy (lift key (denote key)) direction
  | descend target => Step.descend target

def denoteAll : List Expr → List Step
  | [] => []
  | e :: es => lift e (denote e) :: denoteAll es

def denoteOption : Option Expr → Option Step
  | none => none
  | some e => some (lift e (denote e))

def denoteEntry : ObjectEntry → Step.Entry
  | .spread source => .spread (denoteOption source)
  | .pair key value => .pair (lift key (denote key)) (lift value (denote value))

def denoteEntries : List ObjectEntry → List Step.Entry
  | [] => []
  | e :: es => denoteEntry e :: denoteEntries es

end

/-- The step that an expression means. -/
def step (e : Expr) : Step := e.lift e.denote

end Expr

/-- Evaluates an expression on a subject. The session keeps what has been done also on failure. -/
def evaluate (settings : Settings) (e : Expr) (subject : Ref) (session : Session) :
    Except EvalError Ref × Session :=
  let passage := (((e.step subject).run settings).run).run session
  (passage.result, passage.state)

end DocSelect
