import DocSelect.Regex.Place

/-!
# The parts of a pattern as written

What the notation of patterns says before flags are taken into account: a tree of alternatives,
sequences, repetitions and groups, with characters, classes and places as leaves. How deep the parts
stand in each other is limited, and no two groups have the same name.
-/
namespace DocSelect.Regex

inductive Flag where
  | ignoreCase
  /-- line ends are places to begin and end at -/
  | multiLine
  /-- a dot takes line ends too -/
  | dotAll
  /-- repetitions take as little as they can, which makes no difference to whether there is a
  match -/
  | swapGreed
  /-- characters beyond ASCII count as letters, digits and so on -/
  | unicode
  /-- carriage returns end lines too -/
  | returns
  /-- white space and remarks are left out -/
  | verbose
  deriving DecidableEq

/-- The flags that a group names, each with whether it goes on or off. -/
abbrev FlagChange := List (Flag × Bool)

def FlagChange.apply (change : FlagChange) (flag : Flag) (before : Bool) : Bool :=
  (change.lookup flag).getD before

/-- Classes that one letter stands for. -/
inductive Shorthand where
  | digit
  | space
  | word
  deriving DecidableEq

inductive SetOperation where
  | intersection
  | difference
  | symmetricDifference
  deriving DecidableEq

mutual

inductive ClassSet where
  | union (items : List ClassItem)
  | operation (op : SetOperation) (left right : ClassSet)

inductive ClassItem where
  | range (first last : Char)
  /-- an ASCII class by its name -/
  | ascii (negated : Bool) (set : CharSet)
  | shorthand (negated : Bool) (kind : Shorthand)
  | property (negated : Bool) (query : Property.Query)
  | bracketed (negated : Bool) (set : ClassSet)

end

/-- A place as it is written. Flags say where lines begin and end, and what words consist of. -/
inductive PlaceMark where
  | start
  | finish
  | fixed (p : Place)
  | word (p : Repertoire → Place)

inductive GroupKind where
  | numbered
  | named (name : List Char)
  | plain (change : FlagChange)

inductive Syntax where
  | flags (change : FlagChange)
  /-- A character; `isByte` if it is written as a byte of two hexadecimal digits. -/
  | char (isByte : Bool) (c : Char)
  | dot
  | place (mark : PlaceMark)
  | shorthand (negated : Bool) (kind : Shorthand)
  | property (negated : Bool) (query : Property.Query)
  | bracketed (negated : Bool) (set : ClassSet)
  | repeated (inner : Syntax) (least : Nat) (greatest : Option Nat)
  | group (kind : GroupKind) (inner : Syntax)
  | sequence (parts : List Syntax)
  | alternatives (branches : List Syntax)

/-! ## Depth -/

mutual

/-- How deep the parts of a class stand in each other; a lone item needs no union. -/
def ClassSet.depth : ClassSet → Nat
  | .union items => depthOfItems items + (if 1 < items.length then 1 else 0)
  | .operation _ left right => max left.depth right.depth + 1

def ClassItem.depth : ClassItem → Nat
  | .bracketed _ set => set.depth + 1
  | _ => 0

def depthOfItems : List ClassItem → Nat
  | [] => 0
  | item :: rest => max item.depth (depthOfItems rest)

end

mutual

/-- How deep the parts of a pattern stand in each other; a lone part needs no sequence. -/
def Syntax.depth : Syntax → Nat
  | .bracketed _ set => set.depth + 1
  | .repeated inner _ _ => inner.depth + 1
  | .group _ inner => inner.depth + 1
  | .sequence parts => depthOfParts parts + (if 1 < parts.length then 1 else 0)
  | .alternatives branches => depthOfParts branches + (if 1 < branches.length then 1 else 0)
  | _ => 0

def depthOfParts : List Syntax → Nat
  | [] => 0
  | part :: rest => max part.depth (depthOfParts rest)

end

/-! ## Names of groups -/

mutual

def Syntax.names : Syntax → List (List Char)
  | .repeated inner _ _ => inner.names
  | .group (.named name) inner => name :: inner.names
  | .group _ inner => inner.names
  | .sequence parts => namesInParts parts
  | .alternatives branches => namesInParts branches
  | _ => []

def namesInParts : List Syntax → List (List Char)
  | [] => []
  | part :: rest => part.names ++ namesInParts rest

end

namespace Syntax

/-- How deep the parts of a pattern may stand in each other. -/
def maxDepth : Nat := 250

/-- Whether the parts are not too deep in each other and the names of groups differ. -/
def isAcceptable (s : Syntax) : Bool := s.depth ≤ maxDepth && decide s.names.Nodup

end Syntax

end DocSelect.Regex
