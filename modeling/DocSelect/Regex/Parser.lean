import DocSelect.Json.Reader
import DocSelect.Regex.Syntax
import DocSelect.Text.Blank
import DocSelect.Text.Numerals

/-!
# The notation of patterns

Alternatives, repetitions, groups with flags, classes in brackets and the usual escapes. There is no
looking around and no reference to what a group matched: a pattern that asks for one is malformed.

Every reader takes the rest of the text and gives back what it left over; it has nothing to give for
a malformed text. Readers that recurse carry a bound, for which the length of the text is enough.
While the flag `verbose` is on, white space and remarks may stand between any two tokens and inside
most of them.
-/
namespace DocSelect.Regex.Syntax

/-! ## White space and remarks -/

/-- The characters at the beginning that pass a test, and the rest. Verbosely, white space and
remarks before and between them are left out; a remark goes from a number sign to the end of its
line. -/
def run (verbose : Bool) (test : Char → Bool) :
    (inRemark : Bool) → List Char → List Char × List Char
  | _, [] => ([], [])
  | true, c :: cs => run verbose test (c != '\n') cs
  | false, c :: cs =>
    if verbose && isBlank c then run verbose test false cs
    else if verbose && c == '#' then run verbose test true cs
    else if test c then
      let (passed, rest) := run verbose test false cs
      (c :: passed, rest)
    else ([], c :: cs)

/-- Leaves out white space and remarks where they do not count. -/
def skip (verbose : Bool) (cs : List Char) : List Char := (run verbose (fun _ => false) false cs).2

def readBraced (verbose : Bool) (cs : List Char) : Option (List Char × List Char) :=
  match run verbose (· != '\x7d') false cs with
  | (_, []) => none
  | (content, _ :: rest) => some (content, rest)

/-! ## Escapes -/

/-- The number that hexadecimal digits write, and the character it is the code point of. -/
def hexChar? (digits : List Char) : Option Char := do
  let values ← digits.mapM Json.hexValue?
  let n := values.foldl (fun n d => 16 * n + d) 0
  if digits.isEmpty then none
  else if h : n.isValidChar then some (Char.ofNatAux n h)
  else none

def readFixed (verbose : Bool) : (width : Nat) → List Char → Option (List Char × List Char)
  | 0, cs => some ([], cs)
  | _, [] => none
  | width + 1, c :: cs => do
    let (digits, rest) ← readFixed verbose width (skip verbose cs)
    return (c :: digits, rest)

/-- A code point of `width` digits, or of any number between braces. -/
def readHex (verbose : Bool) (width : Nat) (cs : List Char) : Option (Syntax × List Char) :=
  match skip verbose cs with
  | '\x7b' :: cs => do
    let (digits, rest) ← readBraced verbose cs
    let c ← hexChar? digits
    return (.char false c, rest)
  | cs => do
    let (digits, rest) ← readFixed verbose width cs
    let c ← hexChar? digits
    return (.char (width == 2) c, rest)

/-- Cuts a text at the first place where another one stands in it. -/
def cutAt? (mark : List Char) : List Char → Option (List Char × List Char)
  | [] => none
  | c :: cs =>
    if mark.isPrefixOf (c :: cs) then some ([], (c :: cs).drop mark.length)
    else (cutAt? mark cs).map fun (before, after) => (c :: before, after)

/-- What a name or an equation between braces asks for; an inequality asks for the opposite. -/
def propertyOf (negated : Bool) (content : List Char) : Syntax :=
  let asked (p v : List Char) : Property.Query := .value (String.ofList p) (String.ofList v)
  match cutAt? ['!', '='] content with
  | some (p, v) => .property (!negated) (asked p v)
  | none =>
    match cutAt? [':'] content <|> cutAt? ['='] content with
    | some (p, v) => .property negated (asked p v)
    | none => .property negated (.name (String.ofList content))

/-- A property: one letter, or what braces hold. -/
def readProperty (verbose negated : Bool) (cs : List Char) : Option (Syntax × List Char) :=
  match skip verbose cs with
  | '\x7b' :: cs =>
    (readBraced verbose cs).map fun (content, rest) => (propertyOf negated content, rest)
  | '\\' :: _ => none
  | c :: rest => some (.property negated (.name c.toString), rest)
  | [] => none

/-- The side of a word between braces, from behind the opening one on. -/
def readWordSide (verbose : Bool) (cs : List Char) : Option (PlaceMark × List Char) :=
  match run verbose (fun c => c.isAlpha || c == '-') false cs with
  | (name, '\x7d' :: rest) =>
    match String.ofList name with
    | "start" => some (.word .wordStart, rest)
    | "end" => some (.word .wordEnd, rest)
    | "start-half" => some (.word .noWordBefore, rest)
    | "end-half" => some (.word .noWordAfter, rest)
    | _ => none
  | _ => none

/-- A boundary of a word, from behind its letter on. Braces hold the name of a side unless something
other than a name begins in them, which makes them a repetition. -/
def readBoundary (verbose : Bool) (cs : List Char) : Option (Syntax × List Char) :=
  let boundary : Syntax := .place (.word .wordBoundary)
  match cs with
  | '\x7b' :: inner =>
    match skip verbose inner with
    | [] => none
    | c :: inner =>
      if c.isAlpha || c == '-' then
        (readWordSide verbose (c :: inner)).map fun (mark, rest) => (.place mark, rest)
      else some (boundary, cs)
  | cs => some (boundary, cs)

/-- Whether a character stands for itself after a backslash. -/
def isEscapable (c : Char) : Bool :=
  c.toNat < 128 && !c.isAlphanum && c != '<' && c != '>'

def readEscape (verbose : Bool) : List Char → Option (Syntax × List Char)
  | [] => none
  | c :: cs =>
    let char (c : Char) : Option (Syntax × List Char) := some (.char false c, cs)
    match c with
    | 'd' => some (.shorthand false .digit, cs)
    | 'D' => some (.shorthand true .digit, cs)
    | 's' => some (.shorthand false .space, cs)
    | 'S' => some (.shorthand true .space, cs)
    | 'w' => some (.shorthand false .word, cs)
    | 'W' => some (.shorthand true .word, cs)
    | 'A' => some (.place (.fixed .textStart), cs)
    | 'z' => some (.place (.fixed .textEnd), cs)
    | 'b' => readBoundary verbose cs
    | 'B' => some (.place (.word .noWordBoundary), cs)
    | '<' => some (.place (.word .wordStart), cs)
    | '>' => some (.place (.word .wordEnd), cs)
    | 'a' => char '\x07'
    | 'f' => char '\x0c'
    | 't' => char '\t'
    | 'n' => char '\n'
    | 'r' => char '\r'
    | 'v' => char '\x0b'
    | 'x' => readHex verbose 2 cs
    | 'u' => readHex verbose 4 cs
    | 'U' => readHex verbose 8 cs
    | 'p' => readProperty verbose false cs
    | 'P' => readProperty verbose true cs
    | c => if isEscapable c then char c else none

/-! ## Classes -/

/-- What has been read of a class: the operation that waits for its right side, and the items since,
the latest first. -/
structure ClassState where
  pending : Option (ClassSet × SetOperation) := none
  items : List ClassItem := []

namespace ClassState

def push (state : ClassState) (item : ClassItem) : ClassState :=
  { state with items := item :: state.items }

/-- What has been read as a whole; operations apply from left to right. -/
def set (state : ClassState) : ClassSet :=
  let right : ClassSet := .union state.items.reverse
  match state.pending with
  | some (left, op) => .operation op left right
  | none => right

def operate (state : ClassState) (op : SetOperation) : ClassState := ⟨some (state.set, op), []⟩

end ClassState

/-- A named class between `[:` and `:]`, from behind the opening bracket on. -/
def readNamed? (cs : List Char) : Option (ClassItem × List Char) :=
  match cs with
  | ':' :: cs =>
    let (negated, cs) := match cs with
      | '^' :: cs => (true, cs)
      | cs => (false, cs)
    let name := cs.takeWhile (· ≠ ':')
    match cs.drop name.length with
    | ':' :: ']' :: rest =>
      (CharSet.ascii? (String.ofList name)).map fun set => (.ascii negated set, rest)
    | _ => none
  | _ => none

/-- One character or set inside brackets. -/
def readMember (verbose : Bool) : List Char → Option (Syntax × List Char)
  | [] => none
  | '\\' :: cs => readEscape verbose cs
  | c :: cs => some (.char false c, cs)

/-- The next character that counts. The number sign of a remark is passed over, but its text
counts. -/
def peek (verbose : Bool) (cs : List Char) : Option Char :=
  if verbose then
    match cs.dropWhile isBlank with
    | '#' :: remark => (remark.dropWhile isBlank).head? <|> cs.head?
    | c :: _ => some c
    | [] => cs.head?
  else cs.head?

/-- What stands alone inside brackets; a place cannot. -/
def itemOf? : Syntax → Option ClassItem
  | .char _ c => some (.range c c)
  | .shorthand negated kind => some (.shorthand negated kind)
  | .property negated query => some (.property negated query)
  | _ => none

/-- A character, a set or a range of characters inside brackets. -/
def readMembers (verbose : Bool) (cs : List Char) : Option (ClassItem × List Char) := do
  let (first, rest) ← readMember verbose cs
  match skip verbose rest with
  | [] => none
  | '-' :: rest =>
    -- a hyphen at the end stands for itself, and two of them are an operation
    if peek verbose rest == some ']' || peek verbose rest == some '-' then
      let item ← itemOf? first
      return (item, '-' :: rest)
    else
      let (last, rest) ← readMember verbose (skip verbose rest)
      match first, last with
      | .char _ a, .char _ b => if a ≤ b then return (.range a b, rest) else none
      | _, _ => none
  | rest =>
    let item ← itemOf? first
    return (item, rest)

/-- The beginning of a class: whether it is negated, and hyphens or a closing bracket that stand for
themselves. -/
def readClassStart (verbose : Bool) (cs : List Char) : Bool × ClassState × List Char :=
  let (negated, cs) := match skip verbose cs with
    | '^' :: cs => (true, cs)
    | cs => (false, cs)
  let (hyphens, cs) := run verbose (· == '-') false cs
  match hyphens, cs with
  | [], ']' :: cs => (negated, { items := [.range ']' ']'] }, cs)
  | _, cs => (negated, { items := hyphens.map fun c => .range c c }, cs)

/-- The rest of a class. Classes inside it stand at most `room` deep in each other. -/
def readClass (verbose : Bool) : (fuel room : Nat) → ClassState → List Char →
    Option (ClassSet × List Char)
  | 0, _, _, _ => none
  | fuel + 1, room, state, cs =>
    match skip verbose cs with
    | [] => none
    | ']' :: cs => some (state.set, cs)
    | '&' :: '&' :: cs => readClass verbose fuel room (state.operate .intersection) cs
    | '-' :: '-' :: cs => readClass verbose fuel room (state.operate .difference) cs
    | '~' :: '~' :: cs => readClass verbose fuel room (state.operate .symmetricDifference) cs
    | '[' :: cs =>
      match readNamed? cs, room with
      | some (item, cs), _ => readClass verbose fuel room (state.push item) cs
      | none, 0 => none
      | none, inside + 1 => do
        let (negated, start, cs) := readClassStart verbose cs
        let (set, cs) ← readClass verbose fuel inside start cs
        readClass verbose fuel room (state.push (.bracketed negated set)) cs
    | cs => do
      let (item, cs) ← readMembers verbose cs
      readClass verbose fuel room (state.push item) cs

/-! ## Repetitions -/

/-- Digits, at least one, with white space around them, for a number of 32 bits. -/
def readCount (verbose : Bool) (cs : List Char) : Option (Nat × List Char) :=
  let (digits, rest) := run verbose Char.isDigit false (cs.dropWhile isBlank)
  let n := digits.foldl (fun n c => 10 * n + (c.toNat - '0'.toNat)) 0
  if digits.isEmpty || UInt32.size ≤ n then none else some (n, rest.dropWhile isBlank)

/-- How often to repeat, from behind the opening brace on. -/
def readBounds (verbose : Bool) (cs : List Char) : Option ((Nat × Option Nat) × List Char) := do
  let (least, cs) ← readCount verbose cs
  match cs with
  | '\x7d' :: cs => return ((least, some least), cs)
  | ',' :: cs =>
    match skip verbose cs with
    | '\x7d' :: cs => return ((least, none), cs)
    | cs =>
      let (greatest, cs) ← readCount verbose cs
      match cs with
      | '\x7d' :: cs => if least ≤ greatest then return ((least, some greatest), cs) else none
      | _ => none
  | _ => none

/-- Whether a repetition takes as little as it can makes no difference to whether it matches. -/
def skipLazy : List Char → List Char
  | '?' :: cs => cs
  | cs => cs

/-- Repeats the latest part; flags cannot be repeated. -/
def repeatLast (least : Nat) (greatest : Option Nat) : List Syntax → Option (List Syntax)
  | [] => none
  | .flags _ :: _ => none
  | part :: parts => some (.repeated part least greatest :: parts)

/-! ## Groups -/

def flag? : Char → Option Flag
  | 'i' => some .ignoreCase
  | 'm' => some .multiLine
  | 's' => some .dotAll
  | 'U' => some .swapGreed
  | 'u' => some .unicode
  | 'R' => some .returns
  | 'x' => some .verbose
  | _ => none

/-- Flags, each at most once, up to a colon or closing parenthesis, which is left. A hyphen, also at
most once and not at the end, turns off those behind it. -/
def readFlags : (on : Bool) → FlagChange → List Char → Option (FlagChange × List Char)
  | _, _, [] => none
  | on, change, c :: cs =>
    if c = ':' ∨ c = ')' then some (change, c :: cs)
    else if c = '-' then
      if on = false ∨ cs.head? = some ':' ∨ cs.head? = some ')' then none
      else readFlags false change cs
    else
      match flag? c with
      | none => none
      | some flag =>
        if (change.lookup flag).isSome then none else readFlags on ((flag, on) :: change) cs

/-- The name of a group up to the closing angle bracket. -/
def readName (cs : List Char) : Option (List Char × List Char) :=
  let name := cs.takeWhile (· ≠ '>')
  let valid := match name with
    | [] => false
    | c :: rest =>
      (isAlphabetic c || c == '_') &&
        rest.all fun c => isAlphanumeric c || c == '_' || c == '.' || c == '[' || c == ']'
  match cs.drop name.length with
  | _ :: rest => if valid then some (name, rest) else none
  | [] => none

inductive Opening where
  | group (kind : GroupKind)
  /-- flags for the rest of the surrounding group -/
  | flags (change : FlagChange)

/-- What follows an opening parenthesis, up to the content of the group. -/
def readOpening (verbose : Bool) (cs : List Char) : Option (Opening × List Char) :=
  match skip verbose cs with
  | '?' :: 'P' :: '<' :: cs => (readName cs).map fun (name, cs) => (.group (.named name), cs)
  | '?' :: '<' :: cs => (readName cs).map fun (name, cs) => (.group (.named name), cs)
  | '?' :: cs => do
    match (← readFlags true [] cs) with
    | (change, ':' :: cs) => return (.group (.plain change), cs)
    | (change, _ :: cs) => if change.isEmpty then none else return (.flags change, cs)
    | (_, []) => none
  | cs => some (.group .numbered, cs)

/-- An expression that is one character long in the notation, escapes apart. -/
def readSimple (verbose : Bool) : List Char → Option (Syntax × List Char)
  | [] => none
  | '\\' :: cs => readEscape verbose cs
  | '.' :: cs => some (.dot, cs)
  | '^' :: cs => some (.place .start, cs)
  | '$' :: cs => some (.place .finish, cs)
  | c :: cs => some (.char false c, cs)

/-- What has been read of a group, the latest first: the branches before and the parts of this
one. -/
structure GroupState where
  branches : List Syntax := []
  parts : List Syntax := []

namespace GroupState

def push (state : GroupState) (part : Syntax) : GroupState :=
  { state with parts := part :: state.parts }

def branch (state : GroupState) : GroupState :=
  ⟨.sequence state.parts.reverse :: state.branches, []⟩

def whole (state : GroupState) : Syntax := .alternatives state.branch.branches.reverse

end GroupState

/-- The rest of a group up to its closing parenthesis, which is left, or to the end. Groups inside
it stand at most `room` deep in each other. -/
def readGroup : (fuel room : Nat) → (verbose : Bool) → GroupState → List Char →
    Option (Syntax × List Char)
  | 0, _, _, _, _ => none
  | fuel + 1, room, verbose, state, cs =>
    let again (least : Nat) (greatest : Option Nat) (cs : List Char) :
        Option (Syntax × List Char) := do
      let parts ← repeatLast least greatest state.parts
      readGroup fuel room verbose { state with parts := parts } (skipLazy cs)
    match skip verbose cs with
    | [] => some (state.whole, [])
    | ')' :: cs => some (state.whole, ')' :: cs)
    | '|' :: cs => readGroup fuel room verbose state.branch cs
    | '*' :: cs => again 0 none cs
    | '+' :: cs => again 1 none cs
    | '?' :: cs => again 0 (some 1) cs
    | '\x7b' :: cs => do
      let ((least, greatest), cs) ← readBounds verbose cs
      again least greatest (skip verbose cs)
    | '[' :: cs => do
      let (negated, start, cs) := readClassStart verbose cs
      let (set, cs) ← readClass verbose fuel maxDepth start cs
      readGroup fuel room verbose (state.push (.bracketed negated set)) cs
    | '(' :: cs => do
      match (← readOpening verbose cs), room with
      -- flags hold for the rest of the group, the alternatives that follow included
      | (.flags change, cs), _ =>
        readGroup fuel room (change.apply .verbose verbose) (state.push (.flags change)) cs
      | _, 0 => none
      | (.group kind, cs), inside + 1 =>
        let within := match kind with
          | .plain change => change.apply .verbose verbose
          | _ => verbose
        match (← readGroup fuel inside within {} cs) with
        | (inner, ')' :: cs) => readGroup fuel room verbose (state.push (.group kind inner)) cs
        | _ => none
    | cs => do
      let (part, cs) ← readSimple verbose cs
      readGroup fuel room verbose (state.push part) cs

def read? (s : String) : Option Syntax :=
  match readGroup (s.length + 1) maxDepth false {} s.toList with
  | some (parsed, []) => if parsed.isAcceptable then some parsed else none
  | _ => none

end DocSelect.Regex.Syntax
