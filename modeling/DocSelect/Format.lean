import DocSelect.Json.Reader
import DocSelect.Json.Writer
import DocSelect.Value.Tree

/-!
# Document formats

A document is read from text and a result is written as text. A branch is written as several
documents, one for each of its elements.
-/
namespace DocSelect

inductive Format where
  | json
  deriving DecidableEq, Inhabited

inductive FormatError where
  | unsupported (name : String)
  | malformed (format : Format)
  deriving DecidableEq

namespace Format

def name : Format → String
  | json => "json"

/-- The format of a name, in any case. -/
def ofName? (name : String) : Except FormatError Format :=
  if name.map Char.toLower = "json" then .ok json else .error (.unsupported name)

def read (format : Format) (text : String) : Except FormatError Content :=
  match format with
  | json =>
    match Json.read? text with
    | some c => .ok c
    | none => .error (.malformed format)

/-- The documents of a result: the elements of a branch, or the result itself. -/
def documents (s : Store) (r : Ref) : List Ref :=
  match s.data r with
  | .slice items => if s.isBranch r then items else [r]
  | _ => [r]

def write (format : Format) (isCompact : Bool) (s : Store) (r : Ref) : String :=
  match format with
  | json => String.ofList ((documents s r).flatMap fun d => Json.document isCompact (s.content d))

end Format

namespace FormatError

def message : FormatError → String
  | unsupported name => "unsupported file format: " ++ name
  | malformed format => "invalid " ++ format.name ++ " document"

end FormatError

end DocSelect
