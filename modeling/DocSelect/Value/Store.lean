import DocSelect.Dict
import DocSelect.Value.Kind

/-!
# Shared values

A value is a node of a store, and a `Ref` names a node. A slice or map holds the names of its parts,
so one node may be part of several containers, and writing into a node shows in all of them. Nodes
are added and changed but never removed. A name that the store does not know reads as null.

Besides its data a node has marks, which say how its surroundings should take it, and notes. Neither
belongs to the content of the value.
-/
namespace DocSelect

/-- The name of a node. -/
structure Ref where
  index : Nat
  deriving DecidableEq, Inhabited

/-- What a node holds; the parts of a container are other nodes. -/
inductive Data where
  | scalar (a : Scalar)
  | slice (items : List Ref)
  | map (entries : Dict Ref)

instance : Inhabited Data := ⟨.scalar .null⟩

namespace Data

def null : Data := scalar .null

def bool (b : Bool) : Data := scalar (.bool b)

def int (i : Int64) : Data := scalar (.int i)

def float (x : Binary64) : Data := scalar (.float x)

def string (s : String) : Data := scalar (.string s)

def kind : Data → Kind
  | scalar a => a.kind
  | slice _ => .slice
  | map _ => .map

def children : Data → List Ref
  | scalar _ => []
  | slice items => items
  | map entries => entries.values

end Data

/-- How the surroundings of a node take it, and the notes attached to it. -/
structure Marks where
  /-- the slice stands for several results -/
  branch : Bool
  /-- the elements go into the surrounding list -/
  spread : Bool
  /-- a collecting branch leaves the result out -/
  ignored : Bool
  notes : Dict Ref

def Marks.none : Marks := ⟨false, false, false, Dict.empty⟩

instance : Inhabited Marks := ⟨Marks.none⟩

structure Node where
  data : Data
  marks : Marks
  deriving Inhabited

structure Store where
  nodes : Array Node
  deriving Inhabited

namespace Store

def empty : Store := ⟨#[]⟩

def size (s : Store) : Nat := s.nodes.size

def node (s : Store) (r : Ref) : Node := s.nodes[r.index]?.getD default

def data (s : Store) (r : Ref) : Data := (s.node r).data

def marks (s : Store) (r : Ref) : Marks := (s.node r).marks

def kind (s : Store) (r : Ref) : Kind := (s.data r).kind

def isBranch (s : Store) (r : Ref) : Bool := (s.marks r).branch

def isSpread (s : Store) (r : Ref) : Bool := (s.marks r).spread

def isIgnored (s : Store) (r : Ref) : Bool := (s.marks r).ignored

def isNull (s : Store) (r : Ref) : Bool := s.kind r == .null

def isScalar (s : Store) (r : Ref) : Bool := (s.kind r).isScalar

def add (s : Store) (n : Node) : Ref × Store := (⟨s.nodes.size⟩, ⟨s.nodes.push n⟩)

/-- Adds a node without marks. -/
def new (s : Store) (d : Data) : Ref × Store := s.add ⟨d, Marks.none⟩

def modify (s : Store) (r : Ref) (f : Node → Node) : Store := ⟨s.nodes.modify r.index f⟩

/-- Replaces a node's data; its marks stay. -/
def setData (s : Store) (r : Ref) (d : Data) : Store := s.modify r fun n => ⟨d, n.marks⟩

/-- Changes a node's marks; its data stay. -/
def mark (s : Store) (r : Ref) (f : Marks → Marks) : Store :=
  s.modify r fun n => ⟨n.data, f n.marks⟩

@[simp] theorem size_add (s : Store) (n : Node) : (s.add n).2.size = s.size + 1 := by
  simp [add, size]

@[simp] theorem node_add_self (s : Store) (n : Node) : (s.add n).2.node (s.add n).1 = n := by
  simp [add, node]

theorem node_add_of_lt (s : Store) (n : Node) {r : Ref} (h : r.index < s.size) :
    (s.add n).2.node r = s.node r := by
  have hne : r.index ≠ s.nodes.size := Nat.ne_of_lt h
  simp [add, node, Array.getElem?_push, hne]

@[simp] theorem size_modify (s : Store) (r : Ref) (f : Node → Node) :
    (s.modify r f).size = s.size := by
  simp [modify, size]

theorem node_modify_self (s : Store) {r : Ref} (f : Node → Node) (h : r.index < s.size) :
    (s.modify r f).node r = f (s.node r) := by
  have hlt : r.index < s.nodes.size := h
  simp [modify, node, Array.getElem?_modify, Array.getElem?_eq_getElem hlt]

theorem node_modify_of_ne (s : Store) {q r : Ref} (f : Node → Node) (h : q ≠ r) :
    (s.modify r f).node q = s.node q := by
  have hne : r.index ≠ q.index := fun e => h (by cases q; cases r; simp_all)
  simp [modify, node, Array.getElem?_modify, hne]

theorem data_setData_self (s : Store) {r : Ref} (d : Data) (h : r.index < s.size) :
    (s.setData r d).data r = d := by
  simp [setData, data, node_modify_self s _ h]

theorem marks_setData (s : Store) (q r : Ref) (d : Data) :
    (s.setData r d).marks q = s.marks q := by
  by_cases hq : q = r
  · subst hq
    by_cases h : q.index < s.size
    · simp [setData, marks, node_modify_self s _ h]
    · have hge : ¬ q.index < s.nodes.size := h
      simp [setData, marks, modify, node, hge]
  · simp [setData, marks, node_modify_of_ne s _ hq]

theorem data_mark (s : Store) (q r : Ref) (f : Marks → Marks) :
    (s.mark r f).data q = s.data q := by
  by_cases hq : q = r
  · subst hq
    by_cases h : q.index < s.size
    · simp [mark, data, node_modify_self s _ h]
    · have hge : ¬ q.index < s.nodes.size := h
      simp [mark, data, modify, node, hge]
  · simp [mark, data, node_modify_of_ne s _ hq]

def markBranch (s : Store) (r : Ref) : Store := s.mark r fun m => { m with branch := true }

def markSpread (s : Store) (r : Ref) : Store := s.mark r fun m => { m with spread := true }

def clearSpread (s : Store) (r : Ref) : Store := s.mark r fun m => { m with spread := false }

def markIgnored (s : Store) (r : Ref) : Store := s.mark r fun m => { m with ignored := true }

def note? (s : Store) (r : Ref) (key : String) : Option Ref := (s.marks r).notes.find? key

def setNote (s : Store) (r : Ref) (key : String) (value : Ref) : Store :=
  s.mark r fun m => { m with notes := m.notes.insert key value }

/-! ## Reading a node -/

def unexpected {α : Type} (s : Store) (r : Ref) (expected : Kind) : Except ValueError α :=
  .error (.unexpectedKind expected (s.kind r))

def bool? (s : Store) (r : Ref) : Except ValueError Bool :=
  match s.data r with
  | .scalar (.bool b) => .ok b
  | _ => s.unexpected r .bool

def int? (s : Store) (r : Ref) : Except ValueError Int64 :=
  match s.data r with
  | .scalar (.int i) => .ok i
  | _ => s.unexpected r .int

def float? (s : Store) (r : Ref) : Except ValueError Binary64 :=
  match s.data r with
  | .scalar (.float x) => .ok x
  | _ => s.unexpected r .float

def string? (s : Store) (r : Ref) : Except ValueError String :=
  match s.data r with
  | .scalar (.string t) => .ok t
  | _ => s.unexpected r .string

def items? (s : Store) (r : Ref) : Except ValueError (List Ref) :=
  match s.data r with
  | .slice items => .ok items
  | _ => s.unexpected r .slice

def entries? (s : Store) (r : Ref) : Except ValueError (Dict Ref) :=
  match s.data r with
  | .map entries => .ok entries
  | _ => s.unexpected r .map

def length? (s : Store) (r : Ref) : Except ValueError Nat :=
  match s.data r with
  | .slice items => .ok items.length
  | .map entries => .ok entries.size
  | .scalar (.string t) => .ok t.length
  | _ => s.unexpected r .slice

def key? (s : Store) (r : Ref) (key : String) : Except ValueError Ref := do
  match (← s.entries? r).find? key with
  | some value => .ok value
  | none => .error (.keyNotFound key)

/-- The position an index means; a negative one counts back from the end. -/
def position? (index : Int64) (length : Nat) : Except ValueError Nat :=
  let i : Int := if index.toInt < 0 then length + index.toInt else index.toInt
  if i < 0 ∨ (length : Int) ≤ i then .error (.indexOutOfRange index length) else .ok i.toNat

def item? (s : Store) (r : Ref) (index : Int64) : Except ValueError Ref := do
  let items ← s.items? r
  let i ← position? index items.length
  match items[i]? with
  | some item => .ok item
  | none => .error (.indexOutOfRange index items.length)

/-! ## Writing a container -/

def setKey (s : Store) (r : Ref) (key : String) (value : Ref) : Except ValueError Store := do
  return s.setData r (.map ((← s.entries? r).insert key value))

/-- Drops a key of a map; the result is what it held. -/
def deleteKey (s : Store) (r : Ref) (key : String) : Except ValueError (Option Ref × Store) := do
  let entries ← s.entries? r
  return (entries.find? key, s.setData r (.map (entries.erase key)))

def setItem (s : Store) (r : Ref) (index : Int64) (value : Ref) : Except ValueError Store := do
  let items ← s.items? r
  let i ← position? index items.length
  return s.setData r (.slice (items.set i value))

def push (s : Store) (r : Ref) (value : Ref) : Except ValueError Store := do
  return s.setData r (.slice ((← s.items? r) ++ [value]))

/--
Adds a value at the end of a slice, and in place of a branch its elements, to every depth. A failure
on the way leaves what has been added before it. Branches nest less deep than the store has nodes.
-/
def appendWithin : (fuel : Nat) → (target value : Ref) → Store →
    Except ValueError Unit × Store
  | 0, _, _, s => (.ok (), s)
  | fuel + 1, target, value, s =>
    if s.isBranch value then
      match s.items? value with
      | .error e => (.error e, s)
      | .ok items =>
        items.foldl
          (fun (result, s) item =>
            match result with
            | .ok () => appendWithin fuel target item s
            | .error e => (.error e, s))
          (.ok (), s)
    else
      match s.push target value with
      | .ok s => (.ok (), s)
      | .error e => (.error e, s)

def append (s : Store) (target value : Ref) : Except ValueError Unit × Store :=
  appendWithin (s.size + 1) target value s

/-- The nodes that a value contributes to a list: itself, or the elements of a branch, to every
depth. -/
def flattenWithin (s : Store) : (fuel : Nat) → Ref → Except ValueError (List Ref)
  | 0, r => .ok [r]
  | fuel + 1, r =>
    if s.isBranch r then do
      let items ← s.items? r
      return (← items.mapM (flattenWithin s fuel)).flatten
    else .ok [r]

def flatten (s : Store) (r : Ref) : Except ValueError (List Ref) := s.flattenWithin (s.size + 1) r

end Store

end DocSelect
