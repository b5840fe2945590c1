import DocSelect.Eval.Step
import DocSelect.Regex

/-!
# Operators

Operators combine two evaluated operands. Where the left side is a branch, the right side is
evaluated for each of its elements, with that element as the subject.
-/
namespace DocSelect

/-- Both operands have to be booleans, the right one only if the left one does not decide. -/
def Store.logic? (s : Store) (decisive : Bool) (a b : Ref) : Except ValueError Bool := do
  if (← s.bool? a) = decisive then return decisive else s.bool? b

def Store.operate? (s : Store) (op : BinaryOp) (a b : Ref) : Except EvalError Scalar :=
  let value (x : Except ValueError Bool) : Except EvalError Scalar :=
    (x.map Scalar.bool).mapError EvalError.value
  let arithmetic (op : Arithmetic) : Except EvalError Scalar :=
    (s.arithmetic? op a b).mapError EvalError.value
  match op with
  | .equal => .ok (.bool (s.equal a b))
  | .notEqual => .ok (.bool (!s.equal a b))
  | .less => value (s.less? a b)
  | .lessEqual => value (s.lessEqual? a b)
  | .greater => value (s.greater? a b)
  | .greaterEqual => value (s.greaterEqual? a b)
  | .and => value (s.logic? false a b)
  | .or => value (s.logic? true a b)
  | .add => arithmetic .add
  | .subtract => arithmetic .subtract
  | .multiply => arithmetic .multiply
  | .divide => arithmetic .divide
  | .modulo => arithmetic .modulo
  | .like | .notLike | .coalesce => .error (.unsupportedOperator op)

namespace Step

open Eval (ask read new)

/-- Applies an operator to two evaluated operands; the result is a new node. -/
def operate (op : BinaryOp) (a b : Ref) : Eval Ref := do
  match (← read (·.operate? op a b)) with
  | .ok result => new (.scalar result)
  | .error e => throw e

def matching (op : BinaryOp) (pattern : Option String) (left : Ref) : Eval Ref := do
  match pattern with
  | none => throw (.patternExpected op)
  | some p =>
    -- a malformed pattern is reported even where the left side is no text
    match Regex.Pattern.read? p with
    | none => throw .malformedPattern
    | some parsed =>
      let text ← ask (·.string? left)
      new (.bool (parsed.occursIn text == (op == .like)))

def applyTo (op : BinaryOp) (pattern : Option String) (right : Step) (left : Ref) : Step :=
  fun subject =>
    match op with
    | .like | .notLike => matching op pattern left
    | _ => do operate op left (← right subject)

def binary (op : BinaryOp) (pattern : Option String) (left right : Step) : Step := fun subject => do
  let a ← left subject
  if (← read (·.isBranch a)) then
    let items ← ask (·.items? a)
    Eval.newBranch (← collect (fun item => applyTo op pattern right item item) items)
  else applyTo op pattern right a subject

/-- The left side, or the right one where the left one is null or missing. -/
def coalesce (left right : Step) : Step := fun subject => do
  let a ← tryCatch (some <$> left subject) fun e => if e.isMiss then pure none else throw e
  match a with
  | none => right subject
  | some a =>
    -- in a branch each element that is null is replaced on its own
    if (← read (·.isBranch a)) then
      let items ← ask (·.items? a)
      let orElse (item : Ref) : Eval Ref := do
        if (← read (·.isNull item)) then right item else return item
      Eval.newBranch (← collect orElse items)
    else if (← read (·.isNull a)) then right subject
    else return a

def negation (r : Ref) : Eval Ref := do new (.bool (!(← ask (·.bool? r))))

def not (operand : Step) : Step := fun subject => do
  let a ← operand subject
  if (← read (·.isBranch a)) then
    let items ← ask (·.items? a)
    Eval.newBranch (← collect negation items)
  else negation a

/-! ## Assignment -/

/-- Writes a value into a node, combined with what it holds if there is an operator. The result is
the node if it holds a container afterwards, and the value written otherwise. -/
def writeInto (target : Ref) (op : Option BinaryOp) (value : Ref) : Eval Ref := do
  let value ← match op with
    | some op => operate op target value
    | none => pure value
  Eval.change (·.set target value)
  if (← read (·.isScalar target)) then return value else return target

/-- Binds a variable to null if it has no value yet. -/
def bindUnbound (name : String) : Eval Unit := do
  if ((← get).bindings.contains name) then return ()
  else
    let r ← new .null
    modify fun session => { session with bindings := session.bindings.insert name r }

/-- Writes the value into the node that the target selects; for a branch, into each element, with a
value computed from that element. `name` is the variable that the target is, if it is one. -/
def assign (name : Option String) (target : Step) (op : Option BinaryOp) (value : Step) : Step :=
  fun subject => do
    -- first, so that the target never falls back to an environment variable
    if let some name := name then bindUnbound name
    let a ← target subject
    if (← read (·.isBranch a)) then
      let items ← ask (·.items? a)
      let write (item : Ref) : Eval Ref := do writeInto item op (← value item)
      Eval.newBranch (← collect write items)
    else writeInto a op (← value subject)

end Step

end DocSelect
