import DocSelect.Expr.Basic
import DocSelect.FileSystem
import DocSelect.Format

/-!
# Errors of evaluation

An error is a cause inside wrappers: one for each expression that was being evaluated, and one for
the function that was running. Some causes only mean that there is nothing at the place that was
looked at; fallbacks and searches take those for a miss.
-/
namespace DocSelect

inductive Arity where
  | any
  | exactly (n : Nat)
  | atLeast (n : Nat)
  | atMost (n : Nat)
  | between (least greatest : Nat)
  deriving DecidableEq, Inhabited

namespace Arity

def accepts : Arity → Nat → Bool
  | any, _ => true
  | exactly n, count => count == n
  | atLeast n, count => n ≤ count
  | atMost n, count => count ≤ n
  | between least greatest, count => least ≤ count && count ≤ greatest

def text : Arity → String
  | any => "any number"
  | exactly n => s!"exactly {n}"
  | atLeast n => s!"at least {n}"
  | atMost n => s!"at most {n}"
  | between least greatest => s!"between {least} and {greatest}"

end Arity

inductive ArgumentProblem where
  | notNumber (function : String) (actual : Kind)
  | notMap (actual : Kind)
  | notReversible (actual : Kind)
  /-- the part to join at this place, counted from one -/
  | notJoinable (place : Nat) (actual : Kind)
  | notConvertible (actual target : Kind)
  /-- a text that writes no value of this kind -/
  | notReadable (text : String) (target : Kind)
  | notBase64
  | notText
  | other (text : String)
  deriving DecidableEq

namespace ArgumentProblem

def message : ArgumentProblem → String
  | notNumber function actual => function ++ " expects numbers, got " ++ actual.name
  | notMap actual => "merge expects maps, got " ++ actual.name
  | notReversible actual => "cannot reverse " ++ actual.name
  | notJoinable place actual => s!"join expects strings, argument {place} is " ++ actual.name
  | notConvertible actual target => "cannot convert " ++ actual.name ++ " to " ++ target.name
  | notReadable text target => "cannot convert " ++ Quoted.quote text ++ " to " ++ target.name
  | notBase64 => "invalid base64"
  | notText => "decoded base64 is not valid utf-8"
  | other text => text

end ArgumentProblem

/-- What goes over the elements of a slice. -/
inductive Iteration where
  | branch
  | map
  | each
  | filter
  | sort
  deriving DecidableEq

def Iteration.name : Iteration → String
  | branch => "branch"
  | map => "map"
  | each => "each"
  | filter => "filter"
  | sort => "sort"

/-- Whether an error on values means that there is nothing at the place looked at. -/
def ValueError.isMiss : ValueError → Bool
  | .keyNotFound _ | .indexOutOfRange .. | .unexpectedKind .. | .incompatibleKinds .. => true
  | .divisionByZero | .integerOverflow => false

inductive EvalError where
  | value (e : ValueError)
  | undefinedVariable (name : String)
  | undefinedFunction (name : String)
  | argumentCount (function : String) (expected : Arity) (actual : Nat)
  | invalidArgument (problem : ArgumentProblem)
  | notIterable (iteration : Iteration) (actual : Kind)
  | cannotSpread (actual : Kind)
  | invalidKey (actual : Kind)
  | invalidIndex (actual : Kind)
  /-- a match without a pattern at its right -/
  | patternExpected (op : BinaryOp)
  | unexpectedPattern
  /-- an operator that does not combine two values -/
  | unsupportedOperator (op : BinaryOp)
  | malformedPattern
  | format (e : FormatError)
  | file (e : FileError)
  /-- a search that went down this many levels and was not at an end -/
  | searchTooDeep (limit : Nat)
  /-- an error inside an expression of this kind -/
  | within (node : String) (source : EvalError)
  /-- an error while a function was running -/
  | inFunction (name : String) (source : EvalError)

namespace EvalError

def message : EvalError → String
  | value e => e.message
  | undefinedVariable name => "variable " ++ name ++ " not found"
  | undefinedFunction name => "function " ++ Quoted.quote name ++ " not found"
  | argumentCount function expected actual =>
    "invalid number of arguments for function " ++ Quoted.quote function ++ ": expected " ++
      expected.text ++ s!", got {actual}"
  | invalidArgument problem => problem.message
  | notIterable iteration actual =>
    "cannot " ++ iteration.name ++ " over non-array, got " ++ actual.name
  | cannotSpread actual => "cannot spread on type " ++ actual.name
  | invalidKey actual => "object keys must be strings, got " ++ actual.name
  | invalidIndex actual => "index must be a string or int, got " ++ actual.name
  | patternExpected op => "right side of " ++ op.text ++ " must be a regex literal"
  | unexpectedPattern => "regex literal is only valid on the right of =~ or !~"
  | unsupportedOperator op => "operator " ++ op.text ++ " cannot be applied here"
  | malformedPattern => "invalid regex"
  | format e => e.message
  | file e => "io error: " ++ e.message
  | searchTooDeep limit => s!"search went deeper than {limit} levels"
  | within node source => "error evaluating " ++ node ++ ": " ++ source.message
  | inFunction name source =>
    "error executing function " ++ Quoted.quote name ++ ": " ++ source.message

/-- The cause inside all wrappers. -/
def rootCause : EvalError → EvalError
  | within _ source => source.rootCause
  | inFunction _ source => source.rootCause
  | e => e

def isMiss (e : EvalError) : Bool :=
  match e.rootCause with
  | value e => e.isMiss
  | undefinedVariable _ => true
  | _ => false

end EvalError

end DocSelect
