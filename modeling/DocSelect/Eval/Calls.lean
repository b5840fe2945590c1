import DocSelect.Eval.Select

/-!
# Calls

A program that uses a document and an evaluator makes one call after the other. The values that are
involved besides them are read on their own: those of the variables, and those that `modify` writes.
-/
namespace DocSelect

/-- Gives a variable a new value with this content. -/
def Session.bind (σ : Session) (name : String) (c : Content) : Session :=
  let (r, s) := σ.store.build c
  ⟨s, σ.bindings.insert name r⟩

/-- A new document with this content, and variables with theirs. -/
def Session.start (document : Content) (vars : List (String × Content)) : Ref × Session :=
  let (r, s) := Store.empty.build document
  (r, vars.foldl (fun σ v => σ.bind v.1 v.2) ⟨s, Dict.empty⟩)

inductive Call where
  | execute (selector : String) (document : Ref)
  | evaluate (e : Expr) (subject : Ref)
  | query (selector : String) (document : Ref)
  | modify (document : Ref) (selector : String) (value : Content)
  | bind (name : String) (value : Content)

/-- The session after a call, also where the call fails. -/
def Call.run (settings : Settings) : Call → Session → Session
  | execute selector document, σ => (DocSelect.execute settings selector document σ).2
  | evaluate e subject, σ => (DocSelect.evaluate settings e subject σ).2
  | query selector document, σ =>
    { σ with store := (DocSelect.query settings selector document σ.store).2 }
  | modify document selector value, σ =>
    let (r, s) := σ.store.build value
    { σ with store := (DocSelect.modify settings document selector r s).2 }
  | bind name value, σ => σ.bind name value

def Session.after (settings : Settings) (σ : Session) (calls : List Call) : Session :=
  calls.foldl (fun σ call => call.run settings σ) σ

end DocSelect
