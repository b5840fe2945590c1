import DocSelect.Expr.Operator
import DocSelect.Number.Binary64

/-!
# Expressions

The tree of a selector. A chain runs its steps one after the other, each on the result of the one
before; every other expression looks at its subject directly.
-/
namespace DocSelect

inductive DescentTarget where
  | key (name : String)
  | index (i : Int64)
  /-- every scalar -/
  | scalars
  deriving DecidableEq

mutual

inductive Expr where
  | float (x : Binary64)
  | integer (i : Int64)
  | string (s : String)
  | boolean (b : Bool)
  | null
  /-- a pattern; it has a meaning only at the right of a match -/
  | regex (pattern : String)
  /-- the value under a key -/
  | property (name : String)
  /-- the value under a computed key or at a computed position -/
  | index (key : Expr)
  /-- the elements or characters between two positions, both included -/
  | range (start stop : Option Expr)
  | var (name : String)
  | binary (op : BinaryOp) (left right : Expr)
  | not (operand : Expr)
  /-- writes a value into the node that `target` selects, after combining the two if there is an
  operator -/
  | assign (target : Expr) (op : Option BinaryOp) (value : Expr)
  | call (function : String) (arguments : List Expr)
  | object (entries : List ObjectEntry)
  | array (items : List Expr)
  | chain (steps : List Expr)
  /-- the elements or values of the subject, for the surrounding list -/
  | spread
  | group (inner : Expr)
  | conditional (condition consequence : Expr) (alternative : Option Expr)
  /-- several results at once -/
  | branch (results : List Expr)
  | map (step : Expr)
  | each (step : Expr)
  | filter (predicate : Expr)
  | search (predicate : Expr)
  | sortBy (key : Expr) (direction : SortDirection)
  | descend (target : DescentTarget)

inductive ObjectEntry where
  /-- the entries of a map: of the subject if there is no source -/
  | spread (source : Option Expr)
  | pair (key value : Expr)

end

instance : Inhabited Expr := ⟨.null⟩

namespace Expr

def steps : Expr → List Expr
  | chain steps => steps
  | e => [e]

/-- A chain of expressions: chains among them are merged, and a single step stands for itself. -/
def chained (exprs : List Expr) : Expr :=
  match exprs.flatMap steps with
  | [e] => e
  | flat => chain flat

def last (e : Expr) : Expr :=
  match e with
  | chain steps => steps.getLast?.getD e
  | _ => e

def dropLast? : Expr → Option Expr
  | chain steps =>
    match steps.dropLast with
    | [] => none
    | rest => some (chained rest)
  | _ => none

def isSpread : Expr → Bool
  | spread => true
  | _ => false

/-- The name of a kind of expression in messages. -/
def kindName : Expr → String
  | float _ => "float literal"
  | integer _ => "integer literal"
  | string _ => "string literal"
  | boolean _ => "bool literal"
  | null => "null literal"
  | regex _ => "regex literal"
  | property _ => "property"
  | index _ => "index"
  | range .. => "range"
  | var _ => "variable"
  | binary .. => "binary expression"
  | not _ => "unary expression"
  | assign .. => "assignment"
  | call .. => "call"
  | object _ => "object"
  | array _ => "array"
  | chain _ => "chain"
  | spread => "spread"
  | group _ => "group"
  | conditional .. => "conditional"
  | branch _ => "branch"
  | map _ => "map"
  | each _ => "each"
  | filter _ => "filter"
  | search _ => "search"
  | sortBy .. => "sortBy"
  | descend _ => "recursive descent"

end Expr

end DocSelect
