import DocSelect.Regex.Meaning

/-!
# The weight of a pattern

How much memory the automaton of a pattern takes, which reads a text byte by byte, in either
direction. A pattern with too heavy an automaton is refused. The weight counts states and the
transitions from them; repetitions are written out as often as they can be necessary.
-/
namespace DocSelect.Regex

/-! ## Characters as bytes -/

def encodedLength (n : Nat) : Nat :=
  if n < 0x80 then 1 else if n < 0x800 then 2 else if n < 0x10000 then 3 else 4

def encoded (n : Nat) : List Nat :=
  match encodedLength n with
  | 1 => [n]
  | 2 => [0xc0 + n / 64, 0x80 + n % 64]
  | 3 => [0xe0 + n / 4096, 0x80 + n / 64 % 64, 0x80 + n % 64]
  | _ => [0xf0 + n / 262144, 0x80 + n / 4096 % 64, 0x80 + n / 64 % 64, 0x80 + n % 64]

/-- Spans of bytes, one for each byte of a character. -/
abbrev ByteSpans := List Span

/-- Where a span has to be cut so that the bytes of its characters vary independently: between
lengths, and where a byte would change while those behind it do not run through all their values. -/
def cut? (s : Span) : Option Nat :=
  let betweenLengths := [0x7f, 0x7ff, 0xffff].find? fun last => s.first ≤ last && last < s.last
  let atBlock (size : Nat) : Option Nat :=
    if s.first / size = s.last / size then none
    else if s.first % size ≠ 0 then some (s.first - s.first % size + size - 1)
    else if s.last % size ≠ size - 1 then some (s.last - s.last % size - 1)
    else none
  betweenLengths <|>
    if s.last < 0x80 then none else atBlock 64 <|> atBlock 4096 <|> atBlock 262144

/-- A span of characters in spans of bytes. No span needs more cuts in a row than the fuel. -/
def byteSpans : (fuel : Nat) → Span → List ByteSpans
  | 0, _ => []
  | fuel + 1, s =>
    match cut? s with
    | some last => byteSpans fuel ⟨s.first, last⟩ ++ byteSpans fuel ⟨last + 1, s.last⟩
    | none => [(encoded s.first).zipWith Span.mk (encoded s.last)]

def CharSet.byteSpans (s : CharSet) : List ByteSpans := s.spans.flatMap (Regex.byteSpans 32)

/-! ## States -/

def state : Nat := 32

/-- Transitions on a byte, and those without one. -/
def byteTransition : Nat := 8

def freeTransition : Nat := 4

/-- How many byte spans are not shared with the sequence before, which begins with `before`. -/
def countNew : (before : ByteSpans) → List ByteSpans → Nat
  | _, [] => 0
  | before, spans :: rest =>
    let shared := ((before.zip spans).takeWhile fun (a, b) => a == b).length
    spans.length - shared + countNew spans rest

/-- The first bytes that sequences can begin with, each with what may follow. -/
def successors : List ByteSpans → List (Span × List ByteSpans)
  | [] => []
  | [] :: rest => successors rest
  | (first :: tail) :: rest =>
    match successors rest with
    | (next, tails) :: others =>
      if first = next then (first, tail :: tails) :: others
      else (first, [tail]) :: (next, tails) :: others
    | [] => [(first, [tail])]

/-- What may be left to read somewhere on the way through sequences. No character has more than four
bytes. -/
def remainders : (bytes : Nat) → List ByteSpans → List (List ByteSpans)
  | 0, _ => []
  | bytes + 1, sequences =>
    match successors sequences with
    | [] => []
    | next => sequences :: next.flatMap fun (_, tails) => remainders bytes tails

/-- The direction in which an automaton reads. -/
inductive Direction where
  | forward
  | backward
  deriving DecidableEq

namespace Direction

/-- The states of a set of characters. Forwards, what is left to read is shared between characters;
backwards, what has been read. -/
def setWeight (direction : Direction) (s : CharSet) : Nat :=
  match s.spans with
  | [] => state
  | [span] =>
    if span.first = span.last then state * encodedLength span.first else ofMany
  | _ => ofMany
where
  ofMany : Nat :=
    if s.isAscii then 2 * state + byteTransition * s.spans.length
    else
      let sequences := s.byteSpans
      match direction with
      | forward =>
        (remainders 4 sequences).eraseDups.foldl
          (fun n r => n + state + byteTransition * (successors r).length) state
      | backward =>
        2 * state + freeTransition * sequences.length + state * countNew [] sequences

/-- Where a group begins and ends is noted by two states, reading forwards. -/
def groupWeight : Direction → Nat
  | forward => 2 * state
  | backward => 0

end Direction

/-- More than any set of so many spans weighs. -/
def crudeSetWeight (s : CharSet) : Nat := 2 * state + 80 * state * s.spans.length

namespace Pattern

variable {σ π : Type}

/-- The weight of a choice whose first branches are taken care of. -/
def weight (ofSet : σ → Nat) (ofGroup : Nat) : Pattern σ π → Nat
  | empty => state
  | one s => ofSet s
  | place _ => state
  | concat p q => weight ofSet ofGroup p + weight ofSet ofGroup q
  | either p q =>
    2 * state + 2 * freeTransition + weight ofSet ofGroup p + restWeight ofSet ofGroup q
  | times p least greatest =>
    let inner := weight ofSet ofGroup p
    let loop := state + freeTransition
    match greatest with
    | some n =>
      if least = 0 ∧ n = 1 then inner + 2 * state + 2 * freeTransition
      else if least = n then n * inner
      else (if least = 0 then state else least * inner) + state +
        (n - least) * (inner + state + 2 * freeTransition)
    | none =>
      if least = 0 then
        if p.takesSome then inner + loop + freeTransition
        else inner + 2 * loop + 2 * freeTransition + state
      else least * inner + loop + freeTransition
  | group p => ofGroup + weight ofSet ofGroup p
where
  /-- Further branches of a choice share its beginning and end. -/
  restWeight (ofSet : σ → Nat) (ofGroup : Nat) : Pattern σ π → Nat
    | either p q => freeTransition + weight ofSet ofGroup p + restWeight ofSet ofGroup q
    | p => weight ofSet ofGroup p

def maxWeight : Nat := 10 * 1024 * 1024

/-- The weight of all states, those included that find the beginning of a match and note its end. -/
def fullWeight (direction : Direction) (p : TextPattern) : Nat :=
  4 * state + 2 * byteTransition +
    direction.groupWeight + p.weight direction.setWeight direction.groupWeight

/-- Whether the automata of a pattern are light enough. Sets are looked at in detail only where a
crude bound does not settle it. -/
def isLight (p : TextPattern) : Bool :=
  6 * state + p.weight crudeSetWeight (2 * state) ≤ maxWeight ||
    (fullWeight .forward p ≤ maxWeight && fullWeight .backward p ≤ maxWeight)

end Pattern

end DocSelect.Regex
