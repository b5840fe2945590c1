import DocSelect.Command.Arguments

/-!
# The program

The outer layer: it looks up files and environment variables, and prints the outcome of the command.
A file that an evaluation asks for is read when the evaluation stops at it, and the evaluation
starts again with what has been read.
-/
namespace DocSelect.Command

/-- What has been read so far, by path; another path has not been looked up. -/
def filesOf (known : List (String × Except FileError String)) : FileSystem := fun path =>
  (Assoc.find? path known).getD (.error (.unknown path))

def environmentOf (known : List (String × String)) : Environment := fun name =>
  Assoc.find? name known

def variableNames (selector : String) : List String :=
  match tokenize selector with
  | .ok tokens => tokens.filterMap fun t => if t.kind = .var then some t.value else none
  | .error _ => []

/-- The path that an answer still needs. -/
def neededPath? : Except QueryError QueryResult → Option String
  | .error (.file (.unknown path)) => some path
  | .error (.eval e) =>
    match e.rootCause with
    | .file (.unknown path) => some path
    | _ => none
  | _ => none

def fileErrorOf : IO.Error → FileError
  | .noFileOrDirectory .. => .notFound
  | e => .other (toString e)

def readPath (path : String) : IO (Except FileError String) := do
  try return .ok (← IO.FS.readFile path)
  catch e => return .error (fileErrorOf e)

def readEnvironment (names : List String) : IO (List (String × String)) :=
  names.filterMapM fun name => do return (← IO.getEnv name).map (name, ·)

/-- Answers a request, reading files as they are needed. -/
partial def answer (environment : Environment) (standardInput : Except FileError String)
    (r : QueryRequest) (known : List (String × Except FileError String)) : IO Outcome := do
  let files := filesOf known
  let result := r.answer (Settings.standard environment files) files standardInput
  match neededPath? result with
  | some path => answer environment standardInput r ((path, ← readPath path) :: known)
  | none => return Outcome.of result

def readStandardInput : IO (Except FileError String) := do
  try return .ok (← (← IO.getStdin).readToEnd)
  catch _ => return .error .notText

def outcomeOf (arguments : List String) : IO Outcome := do
  match Request.of arguments with
  | .version => return ⟨0, versionText, ""⟩
  | .misuse => return Outcome.misuse
  | .query r =>
    let standardInput ← if r.source = .standardInput then readStandardInput else pure (.ok "")
    let environment ← readEnvironment (variableNames r.selector)
    answer (environmentOf environment) standardInput r []

end DocSelect.Command

def main (arguments : List String) : IO UInt32 := do
  let outcome ← DocSelect.Command.outcomeOf arguments
  (← IO.getStdout).putStr outcome.output
  (← IO.getStderr).putStr outcome.errors
  return outcome.code.toUInt32
