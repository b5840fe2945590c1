import DocSelect.Eval.Function
import DocSelect.Number.Layout
import DocSelect.Text.Blank

/-!
# Conversions

Texts are read without the white space around them, and a floating point number becomes an integer
by dropping its fraction.
-/
namespace DocSelect.Builtin

open DocSelect.Action (read new refuse)

/-- A text without the white space around it. -/
def trimmed (s : String) : String := String.ofList (trimBlank s.toList)

def scalarText : Scalar → String
  | .null => "null"
  | .bool b => if b then "true" else "false"
  | .int i => toString i.toInt
  | .float x => Layout.plain.text x
  | .string s => s

def scalarInt : Scalar → Except ArgumentProblem Int64
  | .null => .error (.notConvertible .null .int)
  | .bool b => .ok (if b then 1 else 0)
  | .int i => .ok i
  | .float x => .ok x.toInt64
  | .string s =>
    match readInt64? (trimmed s) with
    | some i => .ok i
    | none => .error (.notReadable s .int)

def scalarFloat : Scalar → Except ArgumentProblem Binary64
  | .null => .error (.notConvertible .null .float)
  | .bool b => .ok (Binary64.ofInt (if b then 1 else 0))
  | .int i => .ok (Binary64.ofInt64 i)
  | .float x => .ok x
  | .string s =>
    match Binary64.read? (trimmed s) with
    | some x => .ok x
    | none => .error (.notReadable s .float)

/-- Converts the scalar that a node holds; a container cannot be converted. -/
def convert (target : Kind) (f : Scalar → Except ArgumentProblem Data) (r : Ref) :
    Action Ref := do
  match (← read (·.data r)) with
  | .scalar a =>
    match f a with
    | .ok d => new d
    | .error problem => refuse problem
  | d => refuse (.notConvertible d.kind target)

def asString : Function := .unary "toString" fun _ =>
  convert .string fun a => .ok (.string (scalarText a))

def asInt : Function := .unary "toInt" fun _ => convert .int fun a => (scalarInt a).map Data.int

def asFloat : Function := .unary "toFloat" fun _ =>
  convert .float fun a => (scalarFloat a).map Data.float

def typeOf : Function := .unary "typeOf" fun _ argument => do
  let kind ← read (·.kind argument)
  new (.string kind.name)

def conversions : List Function := [asString, asInt, asFloat, typeOf]

end DocSelect.Builtin
