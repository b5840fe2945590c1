import DocSelect.Value.Store

/-!
# Values as trees

`Store.tree` lays out what can be reached from a node as a tree that remembers which node each part
is. Whatever looks at a value to every depth is a recursion on this tree: its content, the way
messages show it, and copying.

A node that is part of itself would make an endless tree; it is cut where the path is longer than
the store has nodes, which no path without repetition is.
-/
namespace DocSelect

/-- A value laid out: each part with the name and the marks of its node. -/
inductive Tree where
  | scalar (ref : Ref) (marks : Marks) (a : Scalar)
  | slice (ref : Ref) (marks : Marks) (items : List Tree)
  | map (ref : Ref) (marks : Marks) (entries : List (String × Tree))

instance : Inhabited Tree := ⟨.scalar default default .null⟩

namespace Tree

def ref : Tree → Ref
  | scalar r .. => r
  | slice r .. => r
  | map r .. => r

def marks : Tree → Marks
  | scalar _ m _ => m
  | slice _ m _ => m
  | map _ m _ => m

def isScalar : Tree → Bool
  | scalar .. => true
  | _ => false

mutual

def content : Tree → Content
  | scalar _ _ a => .scalar a
  | slice _ _ items => .slice (contents items)
  | map _ _ entries => .map (entryContents entries)

def contents : List Tree → List Content
  | [] => []
  | t :: ts => t.content :: contents ts

def entryContents : List (String × Tree) → List (String × Content)
  | [] => []
  | (k, t) :: es => (k, t.content) :: entryContents es

end

end Tree

namespace Store

/-- The tree below a node, cut after `fuel` steps. -/
def treeWithin (s : Store) : (fuel : Nat) → Ref → Tree
  | 0, r => .scalar r (s.marks r) .null
  | fuel + 1, r =>
    match s.data r with
    | .scalar a => .scalar r (s.marks r) a
    | .slice items => .slice r (s.marks r) (items.map (treeWithin s fuel))
    | .map entries =>
      .map r (s.marks r) (entries.entries.map fun (k, c) => (k, treeWithin s fuel c))

def tree (s : Store) (r : Ref) : Tree := s.treeWithin (s.size + 1) r

/-- What a node holds, to every depth. -/
def content (s : Store) (r : Ref) : Content := (s.tree r).content

/-! ## New nodes -/

mutual

/-- Adds nodes with this content. -/
def build : Content → Store → Ref × Store
  | .scalar a, s => s.new (.scalar a)
  | .slice items, s =>
    let (refs, s) := buildItems items s
    s.new (.slice refs)
  | .map entries, s =>
    let (refs, s) := buildEntries entries s
    s.new (.map (Dict.ofList refs))

def buildItems : List Content → Store → List Ref × Store
  | [], s => ([], s)
  | c :: cs, s =>
    let (r, s) := build c s
    let (rs, s) := buildItems cs s
    (r :: rs, s)

def buildEntries : List (String × Content) → Store → List (String × Ref) × Store
  | [], s => ([], s)
  | (k, c) :: es, s =>
    let (r, s) := build c s
    let (rs, s) := buildEntries es s
    ((k, r) :: rs, s)

end

mutual

/-- Adds a copy of every node of a tree, marks included; notes keep naming the old nodes. -/
def plant : Tree → Store → Ref × Store
  | .scalar _ m a, s => s.add ⟨.scalar a, m⟩
  | .slice _ m items, s =>
    let (refs, s) := plantItems items s
    s.add ⟨.slice refs, m⟩
  | .map _ m entries, s =>
    let (refs, s) := plantEntries entries s
    s.add ⟨.map (Dict.ofList refs), m⟩

def plantItems : List Tree → Store → List Ref × Store
  | [], s => ([], s)
  | t :: ts, s =>
    let (r, s) := plant t s
    let (rs, s) := plantItems ts s
    (r :: rs, s)

def plantEntries : List (String × Tree) → Store → List (String × Ref) × Store
  | [], s => ([], s)
  | (k, t) :: es, s =>
    let (r, s) := plant t s
    let (rs, s) := plantEntries es s
    ((k, r) :: rs, s)

end

/-- A copy of a value that shares no part with it. -/
def deepCopy (s : Store) (r : Ref) : Ref × Store := plant (s.tree r) s

/-- The data of a value, its parts copied. -/
def copyData (s : Store) (r : Ref) : Data × Store :=
  match s.tree r with
  | .scalar _ _ a => (.scalar a, s)
  | .slice _ _ items =>
    let (refs, s) := plantItems items s
    (.slice refs, s)
  | .map _ _ entries =>
    let (refs, s) := plantEntries entries s
    (.map (Dict.ofList refs), s)

/-- Gives a node a copy of another value's data. Its own marks stay, and everything that holds the
node sees the change. -/
def set (s : Store) (target value : Ref) : Store :=
  let (d, s) := s.copyData value
  s.setData target d

end Store

end DocSelect
