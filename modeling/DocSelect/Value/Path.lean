import DocSelect.Value.Store

/-!
# Paths

A container has a slot for each of its parts: a key of a map, or a position of a slice. A path is a
list of slots that leads from a node to one of its parts, at any depth.
-/
namespace DocSelect

/-- Where a part stands in its container. -/
inductive Slot where
  | key (name : String)
  | position (i : Nat)
  deriving DecidableEq

def Data.part? : Data → Slot → Option Ref
  | .map entries, .key name => entries.find? name
  | .slice items, .position i => items[i]?
  | _, _ => none

/-- Every part stands in a slot. -/
theorem Data.mem_children_iff {d : Data} {r : Ref} :
    r ∈ d.children ↔ ∃ slot, d.part? slot = some r := by
  cases d with
  | scalar => simp [children, part?]
  | slice items =>
    constructor
    · intro h
      obtain ⟨i, hi⟩ := List.mem_iff_getElem?.1 h
      exact ⟨.position i, hi⟩
    · rintro ⟨slot, h⟩
      cases slot with
      | key => cases h
      | position i => exact List.mem_of_getElem? h
  | map entries =>
    constructor
    · intro h
      obtain ⟨⟨key, _⟩, hmem, rfl⟩ := List.mem_map.1 h
      exact ⟨.key key, entries.find?_of_mem hmem⟩
    · rintro ⟨slot, h⟩
      cases slot with
      | key key => exact List.mem_map.2 ⟨_, entries.mem_of_find? h, rfl⟩
      | position => cases h

namespace Store

def part? (s : Store) (r : Ref) (slot : Slot) : Option Ref := (s.data r).part? slot

def follow? (s : Store) : Ref → List Slot → Option Ref
  | r, [] => some r
  | r, slot :: path => (s.part? r slot).bind (s.follow? · path)

theorem follow?_append (s : Store) (r : Ref) (path rest : List Slot) :
    s.follow? r (path ++ rest) = (s.follow? r path).bind (s.follow? · rest) := by
  induction path generalizing r with
  | nil => rfl
  | cons slot path ih => simp only [List.cons_append, follow?, Option.bind_assoc, ih]

theorem follow?_concat (s : Store) (r : Ref) (path : List Slot) (slot : Slot) :
    s.follow? r (path ++ [slot]) = (s.follow? r path).bind (s.part? · slot) := by
  rw [follow?_append]
  simp [follow?]

end Store

end DocSelect
