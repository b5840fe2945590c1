import DocSelect.Value.Tree

/-!
# Equality and order of values

Values are equal if their contents are, whole and floating point numbers by value and maps whatever
the order of their keys. The order puts null first, then booleans, numbers, texts, slices and maps.
A node is equal to itself, also where it holds a number that is not.
-/
namespace DocSelect

namespace Scalar

def equal : Scalar → Scalar → Bool
  | null, null => true
  | bool a, bool b => a == b
  | int a, int b => a == b
  | int a, float b => (Binary64.ofInt64 a).equal b
  | float a, int b => (Binary64.ofInt64 b).equal a
  | float a, float b => a.equal b
  | string a, string b => a == b
  | _, _ => false

/-- The place of a kind of value among the others. -/
def rank : Scalar → Nat
  | null => 0
  | bool _ => 1
  | int _ => 2
  | float _ => 2
  | string _ => 3

/-- Texts by their characters' code points. -/
def compareText (a b : String) : Ordering :=
  if a < b then .lt else if a = b then .eq else .gt

def compare : Scalar → Scalar → Ordering
  | bool a, bool b => Ord.compare a.toNat b.toNat
  | int a, int b => Ord.compare a.toInt b.toInt
  | int a, float b => (Binary64.ofInt64 a).totalCompare b
  | float a, int b => a.totalCompare (Binary64.ofInt64 b)
  | float a, float b => a.totalCompare b
  | string a, string b => compareText a b
  | a, b => Ord.compare a.rank b.rank

end Scalar

namespace Tree

mutual

def equal : Tree → Tree → Bool
  -- the same node first: it is equal to itself even if it holds a NaN
  | scalar r _ a, b =>
    decide (r = b.ref) ||
      match b with
      | scalar _ _ c => a.equal c
      | _ => false
  | slice r _ items, b =>
    decide (r = b.ref) ||
      match b with
      | slice _ _ others => items.length == others.length && equalItems items others
      | _ => false
  | map r _ entries, b =>
    decide (r = b.ref) ||
      match b with
      | map _ _ others => entries.length == others.length && equalEntries entries others
      | _ => false

/-- Whether the elements are equal one by one, as far as both lists go. -/
def equalItems : List Tree → List Tree → Bool
  | a :: as, b :: bs => equal a b && equalItems as bs
  | _, _ => true

/-- Whether every entry has an equal one under the same key. -/
def equalEntries : List (String × Tree) → List (String × Tree) → Bool
  | [], _ => true
  | (k, a) :: es, others =>
    (match Assoc.find? k others with
      | some b => equal a b
      | none => false) && equalEntries es others

end

/-- The place of a kind of value among the others. -/
def rank : Tree → Nat
  | scalar _ _ a => a.rank
  | slice .. => 4
  | map .. => 5

def sortedKeys (entries : List (String × Tree)) : List String :=
  (Assoc.keys entries).mergeSort (fun a b => decide (¬ b < a))

def compareTexts : List String → List String → Ordering
  | [], [] => .eq
  | [], _ :: _ => .lt
  | _ :: _, [] => .gt
  | a :: as, b :: bs => (Scalar.compareText a b).then (compareTexts as bs)

/-- The first difference among values compared key by key, in the order of the keys. -/
def firstDifference (differences : List (String × Ordering)) : Ordering :=
  (differences.mergeSort (fun a b => decide (¬ b.1 < a.1))).foldl (fun o d => o.then d.2) .eq

mutual

def compare : Tree → Tree → Ordering
  | scalar r m a, b =>
    if r = b.ref then .eq
    else
      match b with
      | scalar _ _ c => a.compare c
      | _ => Ord.compare (scalar r m a).rank b.rank
  | slice r _ items, b =>
    if r = b.ref then .eq
    else
      match b with
      | slice _ _ others => compareItems items others
      | _ => Ord.compare 4 b.rank
  | map r _ entries, b =>
    if r = b.ref then .eq
    else
      match b with
      | map _ _ others =>
        -- the keys decide before any value does
        (Ord.compare entries.length others.length).then
          ((compareTexts (sortedKeys entries) (sortedKeys others)).then
            (firstDifference (compareEntries entries others)))
      | _ => Ord.compare 5 b.rank

/-- Element by element; a list that ends first comes first. -/
def compareItems : List Tree → List Tree → Ordering
  | [], [] => .eq
  | [], _ :: _ => .lt
  | _ :: _, [] => .gt
  | a :: as, b :: bs => (compare a b).then (compareItems as bs)

/-- How the values under each key compare, for the keys that both maps have. -/
def compareEntries : List (String × Tree) → List (String × Tree) → List (String × Ordering)
  | [], _ => []
  | (k, a) :: es, others =>
    (match Assoc.find? k others with
      | some b => [(k, compare a b)]
      | none => []) ++ compareEntries es others

end

end Tree

namespace Store

def equal (s : Store) (a b : Ref) : Bool := (s.tree a).equal (s.tree b)

def compare (s : Store) (a b : Ref) : Ordering := (s.tree a).compare (s.tree b)

/-- The order for comparison operators, which is defined between numbers and between texts. -/
def relation? (s : Store) (a b : Ref) : Except ValueError Ordering :=
  let left := s.kind a
  let right := s.kind b
  if (left.isNumeric && right.isNumeric) || (left == .string && right == .string) then
    .ok (s.compare a b)
  else .error (.incompatibleKinds left right)

def less? (s : Store) (a b : Ref) : Except ValueError Bool := return (← s.relation? a b) == .lt

def lessEqual? (s : Store) (a b : Ref) : Except ValueError Bool :=
  return (← s.relation? a b) != .gt

def greater? (s : Store) (a b : Ref) : Except ValueError Bool := return (← s.relation? a b) == .gt

def greaterEqual? (s : Store) (a b : Ref) : Except ValueError Bool :=
  return (← s.relation? a b) != .lt

end Store

end DocSelect
