import DocSelect.Eval.Builtin
import DocSelect.Eval.Evaluate
import DocSelect.Expr.Parser

/-!
# Selecting and modifying

`execute` runs the text of a selector on a document. `query` gives the selected nodes, and `modify`
writes a value into each of them.
-/
namespace DocSelect

inductive SelectError where
  | parse (e : ParseError)
  | eval (e : EvalError)

namespace SelectError

def message : SelectError → String
  | parse e => "error parsing selector: " ++ e.message
  | eval e => "error executing selector: " ++ e.message

end SelectError

def defaultSearchLimit : Nat := 10000

/-- Settings with the built-in functions. -/
def Settings.standard (environment : Environment) (files : FileSystem) : Settings where
  functions := Registry.builtins files
  environment := environment
  searchLimit := defaultSearchLimit

def isBlankText (s : String) : Bool := s.toList.all isBlank

/-- Runs a selector on a document; a blank one selects the document itself. -/
def execute (settings : Settings) (selector : String) (document : Ref) (session : Session) :
    Except SelectError Ref × Session :=
  if isBlankText selector then (.ok document, session)
  else
    match parse selector with
    | .error e => (.error (.parse e), session)
    | .ok e =>
      let (result, session) := evaluate settings e document session
      (result.mapError .eval, session)

/-- The nodes that a selector selects, those of a branch one by one. Variables begin unbound. -/
def query (settings : Settings) (selector : String) (document : Ref) (s : Store) :
    Except SelectError (List Ref) × Store :=
  let (result, session) := execute settings selector document ⟨s, Dict.empty⟩
  let s := session.store
  match result with
  | .error e => (.error e, s)
  | .ok r =>
    if s.isBranch r then ((s.items? r).mapError fun e => .eval (.value e), s) else (.ok [r], s)

/-- Writes a value into every node that a selector selects, one after the other; the result is their
number. -/
def modify (settings : Settings) (document : Ref) (selector : String) (value : Ref) (s : Store) :
    Except SelectError Nat × Store :=
  let (result, s) := query settings selector document s
  match result with
  | .error e => (.error e, s)
  | .ok selected => (.ok selected.length, selected.foldl (fun s r => s.set r value) s)

end DocSelect
