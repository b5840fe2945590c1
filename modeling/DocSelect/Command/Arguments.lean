import DocSelect.Command.Query

/-!
# The command line

`query` takes a selector and options. An option's value follows it, or an equals sign in the same
word, or, for a one-letter option, the letter itself. A double hyphen ends the options. Options and
the selector are given at most once, and a document comes from one source only.
-/
namespace DocSelect.Command

inductive ValueOption where
  | input
  | file
  | read
  | write
  deriving DecidableEq

inductive FlagOption where
  | compact
  | syntaxOnly
  deriving DecidableEq

def ValueOption.ofName? : String → Option ValueOption
  | "input" => some input
  | "file" => some file
  | "read" => some read
  | "write" => some write
  | _ => none

def ValueOption.ofLetter? : Char → Option ValueOption
  | 'i' => some input
  | 'f' => some file
  | 'r' => some read
  | 'w' => some write
  | _ => none

def FlagOption.ofName? : String → Option FlagOption
  | "compact" => some compact
  | "syntax-only" => some syntaxOnly
  | _ => none

/-- What has been read of a query's arguments. -/
structure QueryArguments where
  selector : Option String := none
  values : List (ValueOption × String) := []
  flags : List FlagOption := []

namespace QueryArguments

def value? (a : QueryArguments) (o : ValueOption) : Option String :=
  (a.values.find? (·.1 = o)).map (·.2)

def addSelector (a : QueryArguments) (text : String) : Option QueryArguments :=
  if a.selector.isSome then none else some { a with selector := some text }

def addValue (a : QueryArguments) (o : ValueOption) (text : String) : Option QueryArguments :=
  if (a.value? o).isSome then none else some { a with values := (o, text) :: a.values }

def addFlag (a : QueryArguments) (o : FlagOption) : Option QueryArguments :=
  if o ∈ a.flags then none else some { a with flags := o :: a.flags }

end QueryArguments

inductive Word where
  /-- a word that is no option -/
  | plain
  /-- a double hyphen -/
  | endOfOptions
  /-- an option by its name, and what follows an equals sign -/
  | long (name : String) (value : Option String)
  /-- an option by its letter, and what follows the letter -/
  | short (letter : Char) (value : Option String)

/-- What a word is by its first characters; a single hyphen is plain. -/
def Word.of (text : String) : Word :=
  match text.toList with
  | ['-', '-'] => endOfOptions
  | '-' :: '-' :: cs =>
    let name := cs.takeWhile (· ≠ '=')
    match cs.drop name.length with
    | _ :: value => long (String.ofList name) (some (String.ofList value))
    | [] => long (String.ofList name) none
  | '-' :: c :: '=' :: cs => short c (some (String.ofList cs))
  | ['-', c] => short c none
  | '-' :: c :: cs => short c (some (String.ofList cs))
  | _ => plain

/-- Gives an option its value: the attached one, or the next word, which must be a plain one. -/
def takeValue (a : QueryArguments) (o : ValueOption) (attached : Option String)
    (rest : List String) : Option (QueryArguments × List String) :=
  match attached, rest with
  | some text, rest => (a.addValue o text).map (·, rest)
  | none, next :: rest =>
    -- a word with a hyphen in front begins another option
    match Word.of next with
    | .plain => (a.addValue o next).map (·, rest)
    | _ => none
  | none, [] => none

/-- Reads the words of a query. Each takes itself off the list, and an option its value too. -/
def readWords : (fuel : Nat) → QueryArguments → List String → Option QueryArguments
  | _, a, [] => some a
  | 0, _, _ => none
  | fuel + 1, a, word :: rest =>
    match Word.of word with
    | .plain => do readWords fuel (← a.addSelector word) rest
    | .endOfOptions => rest.foldlM QueryArguments.addSelector a
    | .long name value =>
      match ValueOption.ofName? name, FlagOption.ofName? name, value with
      | some o, _, value => do
        let (a, rest) ← takeValue a o value rest
        readWords fuel a rest
      | none, some o, none => do readWords fuel (← a.addFlag o) rest
      | _, _, _ => none
    | .short letter value =>
      match ValueOption.ofLetter? letter with
      | some o => do
        let (a, rest) ← takeValue a o value rest
        readWords fuel a rest
      | none => none

inductive Source where
  | text (document : String)
  | file (path : String)
  | standardInput
  deriving DecidableEq

structure QueryRequest where
  selector : String
  source : Source
  read : Format
  write : Format
  compact : Bool
  syntaxOnly : Bool

def formatOf? (a : QueryArguments) (o : ValueOption) : Option Format :=
  match a.value? o with
  | none => some .json
  | some name => (Format.ofName? name).toOption

def QueryArguments.request? (a : QueryArguments) : Option QueryRequest := do
  let selector ← a.selector
  let source ← match a.value? .input, a.value? .file with
    | some text, none => some (.text text)
    | none, some path => some (.file path)
    | none, none => some .standardInput
    | some _, some _ => none
  return {
    selector := selector
    source := source
    read := ← formatOf? a .read
    write := ← formatOf? a .write
    compact := FlagOption.compact ∈ a.flags
    syntaxOnly := FlagOption.syntaxOnly ∈ a.flags }

inductive Request where
  | version
  | query (request : QueryRequest)
  /-- the command line is malformed -/
  | misuse

def Request.of : List String → Request
  | "query" :: words =>
    match (readWords words.length {} words).bind QueryArguments.request? with
    | some r => query r
    | none => misuse
  | word :: _ =>
    match Word.of word with
    | .long "version" none => version
    | .short 'V' _ => version
    | _ => misuse
  | [] => misuse

/-- What a run of the command writes and how it ends. -/
structure Outcome where
  code : Nat
  output : String
  errors : String

def versionText : String := "sel 0.1.0\n"

def Source.read (files : FileSystem) (standardInput : Except FileError String) :
    Source → Except QueryError String
  | .text document => .ok document
  | .file path => (files path).mapError .file
  | .standardInput => standardInput.mapError .file

/-- Answers a query as the command line asks for it. The document is read before the selector. -/
def QueryRequest.answer (settings : Settings) (files : FileSystem)
    (standardInput : Except FileError String) (r : QueryRequest) :
    Except QueryError QueryResult := do
  let input ← r.source.read files standardInput
  runQuery settings ⟨r.selector, some input, r.read, r.write, r.compact, r.syntaxOnly⟩

def Outcome.of : Except QueryError QueryResult → Outcome
  | .ok .syntaxValid => ⟨0, "Syntax is valid\n", ""⟩
  | .ok (.output text) => ⟨0, text, ""⟩
  | .error e => ⟨1, "", e.message ++ "\n"⟩

def Outcome.misuse : Outcome :=
  ⟨2, "", "usage: sel query SELECTOR [-i DOC | -f PATH] [-r FORMAT] [-w FORMAT] " ++
    "[--compact] [--syntax-only]\n"⟩

end DocSelect.Command
