/-!
# Patterns and matching

A pattern is built from tests on single characters and on places between characters. To match, every
test is first answered for the whole text at once: a natural number whose bit `i` says whether the
test holds at character or place `i`. A set of places is such a number too, and a pattern takes the
set of places where a match may begin to the set of places where it may end. So matching is a
recursion on the pattern.
-/
namespace DocSelect.Regex

/-- A pattern with tests `σ` on characters and `π` on places. -/
inductive Pattern (σ π : Type) where
  | empty
  /-- one character that passes a test -/
  | one (test : σ)
  /-- a place that passes a test -/
  | place (test : π)
  | concat (first second : Pattern σ π)
  | either (left right : Pattern σ π)
  /-- at least `least` and at most `greatest` times -/
  | times (inner : Pattern σ π) (least : Nat) (greatest : Option Nat)
  /-- what is inside, as a group that is counted -/
  | group (inner : Pattern σ π)

namespace Pattern

variable {σ π τ ρ : Type}

/-- Answers the tests of a pattern. -/
def map (f : σ → τ) (g : π → ρ) : Pattern σ π → Pattern τ ρ
  | empty => empty
  | one t => one (f t)
  | place t => place (g t)
  | concat p q => concat (map f g p) (map f g q)
  | either p q => either (map f g p) (map f g q)
  | times p least greatest => times (map f g p) least greatest
  | group p => group (map f g p)

def takesNothing : Pattern σ π → Bool
  | empty => true
  | one _ => false
  | place _ => true
  | concat p q => p.takesNothing && q.takesNothing
  | either p q => p.takesNothing && q.takesNothing
  | times p _ greatest => p.takesNothing || greatest == some 0
  | group p => p.takesNothing

def takesSome : Pattern σ π → Bool
  | empty => false
  | one _ => true
  | place _ => false
  | concat p q => p.takesSome || q.takesSome
  | either p q => p.takesSome && q.takesSome
  | times p least _ => p.takesSome && 0 < least
  | group p => p.takesSome

/-- A repetition in its simplest form. What takes nothing gains nothing from a second time. -/
def repeated (p : Pattern σ π) (least : Nat) (greatest : Option Nat) : Pattern σ π :=
  let (least, greatest) :=
    if p.takesNothing then (min least 1, some (min (greatest.getD 1) 1)) else (least, greatest)
  if greatest = some 0 then empty
  else if least = 1 ∧ greatest = some 1 then p
  else times p least greatest

/-- Patterns one after the other, without those that are empty. -/
def sequence : List (Pattern σ π) → Pattern σ π
  | [] => empty
  | empty :: rest => sequence rest
  | p :: rest =>
    match sequence rest with
    | empty => p
    | q => concat p q

end Pattern

/-- A set of places, or of characters, as a number: bit `i` is set if `i` belongs to it. -/
abbrev Places := Nat

/-- The characters that pass a test. -/
def characterMask (test : Char → Bool) : List Char → Places
  | [] => 0
  | c :: cs => (test c).toNat + 2 * characterMask test cs

/-- The places that pass a test on the characters before and after. -/
def placeMask (test : Option Char → Option Char → Bool) :
    (before : Option Char) → List Char → Places
  | before, [] => (test before none).toNat
  | before, c :: cs => (test before (some c)).toNat + 2 * placeMask test (some c) cs

/-- Applies a step a number of times. -/
def iterate (step : Places → Places) : Nat → Places → Places
  | 0, s => s
  | n + 1, s => iterate step n (step s)

/-- Adds what a step reaches, a number of times or until nothing is added. -/
def spread (step : Places → Places) : Nat → Places → Places
  | 0, s => s
  | n + 1, s =>
    let t := s ||| step s
    if t = s then s else spread step n t

/-- The places where a match may end that begins at one of the given places. An unbounded repetition
reaches all it can after as many rounds as there are places. -/
def ends (places : Nat) : Pattern Places Places → Places → Places
  | .empty, s => s
  | .one m, s => (s &&& m) <<< 1
  | .place m, s => s &&& m
  | .concat p q, s => ends places q (ends places p s)
  | .either p q, s => ends places p s ||| ends places q s
  | .times p least greatest, s =>
    let rounds := match greatest with
      | some n => n - least
      | none => places
    spread (ends places p) rounds (iterate (ends places p) least s)
  | .group p, s => ends places p s

def Pattern.occurs (p : Pattern (Char → Bool) (Option Char → Option Char → Bool))
    (text : List Char) : Bool :=
  let answered := p.map (characterMask · text) (placeMask · none text)
  ends (text.length + 1) answered ((1 <<< (text.length + 1)) - 1) != 0

end DocSelect.Regex
