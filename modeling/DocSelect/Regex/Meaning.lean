import DocSelect.Regex.Pattern
import DocSelect.Regex.Syntax

/-!
# What the notation of patterns means

Flags turn the parts of a pattern as written into tests on characters and places. A change of flags
holds to the end of the group around it. Where the flag `unicode` is off, only ASCII characters are
in classes, and what would take in a part of another character has no meaning.
-/
namespace DocSelect.Regex

/-- The flags that bear on what the parts mean. -/
structure Flags where
  ignoreCase : Bool := false
  multiLine : Bool := false
  dotAll : Bool := false
  unicode : Bool := true
  returns : Bool := false

def Flags.change (flags : Flags) (change : FlagChange) : Flags where
  ignoreCase := change.apply .ignoreCase flags.ignoreCase
  multiLine := change.apply .multiLine flags.multiLine
  dotAll := change.apply .dotAll flags.dotAll
  unicode := change.apply .unicode flags.unicode
  returns := change.apply .returns flags.returns

/-! ## Sets of characters -/

namespace CharSet

/-- A set by the flags: without regard to case if they say so. -/
def folded (flags : Flags) (s : CharSet) : CharSet :=
  if flags.ignoreCase then
    if flags.unicode then s.closeUnderCase else s.closeUnderAsciiCase
  else s

/-- A set or its opposite, which goes beyond ASCII. -/
def signed? (flags : Flags) (negated : Bool) (s : CharSet) : Option CharSet :=
  if negated then
    if flags.unicode then some s.complement else none
  else some s

end CharSet

/-- Shorthands are closed under the differences of case as they are. -/
def Shorthand.set (unicode : Bool) : Shorthand → CharSet
  | digit => if unicode then Property.digits else CharSet.asciiDigit
  | space => if unicode then Property.spaces else CharSet.asciiSpace
  | word => if unicode then Property.wordChars else CharSet.asciiWord

def SetOperation.apply : SetOperation → CharSet → CharSet → CharSet
  | intersection, s, t => s.intersection t
  | difference, s, t => s.difference t
  | symmetricDifference, s, t => s.symmetricDifference t

def Property.Query.set? (flags : Flags) (negated : Bool) (query : Property.Query) :
    Option CharSet :=
  if flags.unicode then do
    let table ← query.table?
    (table.chars.folded flags).signed? flags negated
  else none

mutual

def ClassSet.meaning? (flags : Flags) : ClassSet → Option CharSet
  | .union items => itemsMeaning? flags items
  | .operation op left right => do
    let s ← left.meaning? flags
    let t ← right.meaning? flags
    return op.apply (s.folded flags) (t.folded flags)

def ClassItem.meaning? (flags : Flags) : ClassItem → Option CharSet
  | .range first last =>
    let s := CharSet.ofRange first last
    if flags.unicode || s.isAscii then some s else none
  | .ascii negated set => (set.folded flags).signed? flags negated
  | .shorthand negated kind => (kind.set flags.unicode).signed? flags negated
  | .property negated query => query.set? flags negated
  | .bracketed negated set => do
    let s ← set.meaning? flags
    (s.folded flags).signed? flags negated

def itemsMeaning? (flags : Flags) : List ClassItem → Option CharSet
  | [] => some .nothing
  | item :: rest => do
    let s ← item.meaning? flags
    let t ← itemsMeaning? flags rest
    return s ∪ t

end

/-! ## Patterns -/

abbrev TextPattern := Pattern CharSet Place

def PlaceMark.meaning (flags : Flags) : PlaceMark → Place
  | start =>
    if !flags.multiLine then .textStart else if flags.returns then .returnLineStart else .lineStart
  | finish =>
    if !flags.multiLine then .textEnd else if flags.returns then .returnLineEnd else .lineEnd
  | fixed p => p
  | word p => p (if flags.unicode then .unicode else .ascii)

/-- Any character, as a dot takes it. -/
def dotSet (flags : Flags) : CharSet :=
  if flags.dotAll then .everything
  else if flags.returns then (CharSet.ofChars ['\n', '\r']).complement
  else (CharSet.single '\n').complement

/-- Patterns to choose from; where all take a single character, one test does for them. -/
def choice (branches : List TextPattern) : TextPattern :=
  let single? : TextPattern → Option CharSet
    | .one s => some s
    | _ => none
  match branches.mapM single? with
  | some sets => .one (sets.foldl CharSet.union .nothing)
  | none =>
    match branches.reverse with
    | [] => .one .nothing
    | last :: before => before.foldl (fun p q => .either q p) last

def branchesOf : TextPattern → List TextPattern
  | .either p q => p :: branchesOf q
  | p => [p]

mutual

/-- What a part means under some flags, and the flags that hold behind it. -/
def Syntax.meaning? (flags : Flags) : Syntax → Option (TextPattern × Flags)
  | .flags change => some (.empty, flags.change change)
  | .char isByte c =>
    if !flags.unicode && isByte && 128 ≤ c.toNat then none
    else some (.one ((CharSet.single c).folded flags), flags)
  | .dot => if flags.unicode then some (.one (dotSet flags), flags) else none
  | .place mark => some (.place (mark.meaning flags), flags)
  | .shorthand negated kind => do
    let s ← (kind.set flags.unicode).signed? flags negated
    return (.one s, flags)
  | .property negated query => do
    let s ← query.set? flags negated
    return (.one s, flags)
  | .bracketed negated set => do
    let s ← set.meaning? flags
    let s ← (s.folded flags).signed? flags negated
    return (.one s, flags)
  | .repeated inner least greatest => do
    let (p, flags) ← inner.meaning? flags
    return (p.repeated least greatest, flags)
  | .group (.plain change) inner => do
    let (p, _) ← inner.meaning? (flags.change change)
    return (p, flags)
  | .group _ inner => do
    let (p, _) ← inner.meaning? flags
    return (.group p, flags)
  | .sequence parts => do
    let (ps, flags) ← meaningOfParts? flags parts
    return (.sequence ps, flags)
  | .alternatives branches => do
    let (ps, flags) ← meaningOfParts? flags branches
    return (choice (ps.flatMap branchesOf), flags)

def meaningOfParts? (flags : Flags) : List Syntax → Option (List TextPattern × Flags)
  | [] => some ([], flags)
  | part :: rest => do
    let (p, flags) ← part.meaning? flags
    let (ps, flags) ← meaningOfParts? flags rest
    return (p :: ps, flags)

end

end DocSelect.Regex
