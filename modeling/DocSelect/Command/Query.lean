import DocSelect.Eval.Select

/-!
# The query command

A selector is checked, a document read, the selector evaluated on it and the result written, in this
order; the first that fails decides.
-/
namespace DocSelect.Command

structure QueryOptions where
  selector : String
  /-- the text of the document; without one the document is null -/
  input : Option String
  read : Format
  write : Format
  compact : Bool
  syntaxOnly : Bool

inductive QueryResult where
  /-- the selector has a tree, and nothing else was asked for -/
  | syntaxValid
  | output (text : String)
  deriving DecidableEq

inductive QueryError where
  | parse (e : ParseError)
  | eval (e : EvalError)
  | format (e : FormatError)
  | file (e : FileError)

namespace QueryError

def message : QueryError → String
  | parse e => e.message
  | eval e => e.message
  | format e => e.message
  | file e => "io error: " ++ e.message

end QueryError

def document (options : QueryOptions) : Except FormatError Content :=
  match options.input with
  | some text => options.read.read text
  | none => .ok .null

def runQuery (settings : Settings) (options : QueryOptions) : Except QueryError QueryResult := do
  let e ← (DocSelect.parse options.selector).mapError .parse
  if options.syntaxOnly then return .syntaxValid
  let content ← (document options).mapError .format
  let (r, s) := Store.build content Store.empty
  let (result, session) := evaluate settings e r ⟨s, Dict.empty⟩
  let r ← result.mapError .eval
  return .output (options.write.write options.compact session.store r)

end DocSelect.Command
