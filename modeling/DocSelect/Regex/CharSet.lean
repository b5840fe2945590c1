import DocSelect.Text.CaseFolding

/-!
# Sets of characters

A set of characters is a list of spans of code points, in increasing order and apart from each
other. The operations are those of sets, and the closing of a set under the differences of case.
-/
namespace DocSelect.Regex

structure Span where
  first : Nat
  last : Nat
  deriving DecidableEq

structure CharSet where
  spans : List Span

namespace CharSet

def nothing : CharSet := ⟨[]⟩

/-- All characters: the code points without the surrogates. -/
def everything : CharSet := ⟨[⟨0, 0xd7ff⟩, ⟨0xe000, 0x10ffff⟩]⟩

def inSpans (n : Nat) : List Span → Bool
  | [] => false
  | s :: rest => if n < s.first then false else n ≤ s.last || inSpans n rest

def has (s : CharSet) (n : Nat) : Bool := inSpans n s.spans

def contains (s : CharSet) (c : Char) : Bool := s.has c.toNat

@[simp] theorem has_nothing (n : Nat) : nothing.has n = false := rfl

/-- Joins the spans that overlap or touch, in a list that is sorted by where they begin. -/
def fuse : List Span → List Span
  | a :: b :: rest =>
    if b.first ≤ a.last + 1 then fuse (⟨a.first, max a.last b.last⟩ :: rest)
    else a :: fuse (b :: rest)
  | spans => spans
  termination_by spans => spans.length

def common : List Span → List Span → List Span
  | [], _ => []
  | _, [] => []
  | a :: s, b :: t =>
    let first := max a.first b.first
    let last := min a.last b.last
    let rest := if a.last < b.last then common s (b :: t) else common (a :: s) t
    if first ≤ last then ⟨first, last⟩ :: rest else rest
  termination_by s t => s.length + t.length

/-- What spans leave out from `start` on. -/
def gaps (start : Nat) : List Span → List Span
  | [] => if start ≤ 0x10ffff then [⟨start, 0x10ffff⟩] else []
  | s :: rest =>
    if start < s.first then ⟨start, s.first - 1⟩ :: gaps (s.last + 1) rest
    else gaps (s.last + 1) rest

def union (s t : CharSet) : CharSet :=
  ⟨fuse (s.spans.merge t.spans fun a b => a.first ≤ b.first)⟩

def intersection (s t : CharSet) : CharSet := ⟨common s.spans t.spans⟩

def complement (s : CharSet) : CharSet := intersection everything ⟨gaps 0 s.spans⟩

def difference (s t : CharSet) : CharSet := intersection s (complement t)

def symmetricDifference (s t : CharSet) : CharSet := union (difference s t) (difference t s)

instance : Union CharSet := ⟨union⟩

def ofRange (first last : Char) : CharSet :=
  intersection everything ⟨[⟨first.toNat, last.toNat⟩]⟩

def single (c : Char) : CharSet := ⟨[⟨c.toNat, c.toNat⟩]⟩

theorem has_single (c : Char) (n : Nat) : (single c).has n = (n == c.toNat) := by
  simp only [has, single, inSpans, Bool.or_false]
  by_cases h : n < c.toNat
  · simp [h, Nat.ne_of_lt h]
  · by_cases e : n = c.toNat
    · simp [e]
    · have past : ¬ n ≤ c.toNat := by omega
      simp [h, e, past]

def ofPoints (points : List Nat) : CharSet :=
  ⟨fuse ((points.map fun n => Span.mk n n).mergeSort fun a b => a.first ≤ b.first)⟩

def ofChars (cs : List Char) : CharSet := ofPoints (cs.map Char.toNat)

def isAscii (s : CharSet) : Bool := s.spans.all (·.last < 128)

/-! ## Case -/

/-- Adds to a set whatever differs from a member in nothing but case. -/
def closeUnderCase (s : CharSet) : CharSet :=
  let folded := s ∪ ofPoints (caseFolds.filterMap fun (c, target) =>
    if s.has c then some target else none)
  folded ∪ ofPoints (caseFolds.filterMap fun (c, target) =>
    if folded.has target then some c else none)

/-- Adds to a set the other case of its ASCII letters. -/
def closeUnderAsciiCase (s : CharSet) : CharSet :=
  let letters (first : Nat) : List Nat := (List.range 26).map (first + ·)
  s ∪ ofPoints (((letters 0x41).filter s.has).map (· + 32)) ∪
    ofPoints (((letters 0x61).filter s.has).map (· - 32))

/-! ## Classes of ASCII characters -/

def asciiDigit : CharSet := ofRange '0' '9'

def asciiLetter : CharSet := ofRange 'A' 'Z' ∪ ofRange 'a' 'z'

def asciiSpace : CharSet := ofChars ['\t', '\n', '\x0b', '\x0c', '\r', ' ']

def asciiWord : CharSet := asciiLetter ∪ asciiDigit ∪ single '_'

def ascii? (name : String) : Option CharSet :=
  match name with
  | "alnum" => some (asciiLetter ∪ asciiDigit)
  | "alpha" => some asciiLetter
  | "ascii" => some (ofRange '\x00' '\x7f')
  | "blank" => some (ofChars ['\t', ' '])
  | "cntrl" => some (ofRange '\x00' '\x1f' ∪ single '\x7f')
  | "digit" => some asciiDigit
  | "graph" => some (ofRange '!' '~')
  | "lower" => some (ofRange 'a' 'z')
  | "print" => some (ofRange ' ' '~')
  | "punct" => some (difference (ofRange '!' '~') (asciiLetter ∪ asciiDigit))
  | "space" => some asciiSpace
  | "upper" => some (ofRange 'A' 'Z')
  | "word" => some asciiWord
  | "xdigit" => some (asciiDigit ∪ ofRange 'a' 'f' ∪ ofRange 'A' 'F')
  | _ => none

end CharSet

end DocSelect.Regex
