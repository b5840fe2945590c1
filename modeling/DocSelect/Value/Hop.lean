import DocSelect.Value.Path

/-!
# Looking up and replacing parts of a content

A hop looks up one part: a key of a map, or an index of a slice, which counts back from the end if
it is negative. Along some hops a content has a part, and the part can be replaced by another
content, with nothing else changed.
-/
namespace DocSelect

inductive Hop where
  | property (name : String)
  | key (name : String)
  | index (i : Int64)
  deriving DecidableEq

/-- The slot that a hop means in a container with this number of parts. -/
def Hop.slot? (length : Nat) : Hop → Option Slot
  | property name | key name => some (.key name)
  | index i => (Store.position? i length).toOption.map .position

namespace Content

def length : Content → Nat
  | scalar _ => 0
  | slice items => items.length
  | map entries => entries.length

def part? : Content → Slot → Option Content
  | map entries, .key name => Assoc.find? name entries
  | slice items, .position i => items[i]?
  | _, _ => none

def setPart : Content → Slot → Content → Content
  | map entries, .key name, w => map (Assoc.insert name w entries)
  | slice items, .position i, w => slice (items.set i w)
  | c, _, _ => c

def at? : Content → List Hop → Option Content
  | c, [] => some c
  | c, hop :: rest => do (← c.part? (← hop.slot? c.length)).at? rest

/-- Replaces the part at the end of some hops, if there is one. -/
def replace? : Content → List Hop → Content → Option Content
  | _, [], w => some w
  | c, hop :: rest, w => do
    let slot ← hop.slot? c.length
    return c.setPart slot (← (← c.part? slot).replace? rest w)

-- ---------------------------------------------------------------------------
-- One part
-- ---------------------------------------------------------------------------

variable {c d w : Content} {slot other : Slot}

theorem length_setPart (h : c.part? slot = some d) : (c.setPart slot w).length = c.length := by
  cases c <;> cases slot <;> simp only [part?, reduceCtorEq] at h
  · simp [setPart, length]
  · rename_i entries name
    have hlist {es : List (String × Content)} (hn : Assoc.find? name es = some d) :
        (Assoc.insert name w es).length = es.length := by
      induction es with
      | nil => simp [Assoc.find?] at hn
      | cons e es ih =>
        by_cases hk : e.1 = name
        · simp [Assoc.insert, hk]
        · simp only [Assoc.find?, hk, if_false] at hn
          simp [Assoc.insert, hk, ih hn]
    exact hlist h

theorem part?_setPart (h : c.part? slot = some d) : (c.setPart slot w).part? slot = some w := by
  cases c <;> cases slot <;> simp only [part?, reduceCtorEq] at h
  · obtain ⟨hlt, -⟩ := List.getElem?_eq_some_iff.1 h
    simp [setPart, part?, hlt]
  · exact Assoc.find?_insert_self

/-- The other parts stay. -/
theorem part?_setPart_of_ne (h : other ≠ slot) :
    (c.setPart slot w).part? other = c.part? other := by
  cases c <;> cases slot <;> cases other <;> try rfl
  · rename_i i j
    have hne : i ≠ j := fun heq => h (heq ▸ rfl)
    simp [setPart, part?, hne]
  · rename_i k k'
    exact Assoc.find?_insert_of_ne fun heq => h (heq ▸ rfl)

theorem setPart_setPart (v : Content) : (c.setPart slot v).setPart slot w = c.setPart slot w := by
  cases c <;> cases slot <;> try rfl
  · simp [setPart]
  · simp only [setPart, Assoc.insert_insert]

theorem setPart_of_part? (h : c.part? slot = some d) : c.setPart slot d = c := by
  cases c <;> cases slot <;> simp only [part?, reduceCtorEq] at h
  · obtain ⟨hlt, rfl⟩ := List.getElem?_eq_some_iff.1 h
    simp [setPart]
  · simp only [setPart, Assoc.insert_of_find? h]

-- ---------------------------------------------------------------------------
-- Several hops
-- ---------------------------------------------------------------------------

variable {hops : List Hop}

/-- What has been put at the end of some hops is there. -/
theorem at?_replace? (h : c.replace? hops w = some d) : d.at? hops = some w := by
  induction hops generalizing c d with
  | nil => rw [at?, ← Option.some.inj h]
  | cons hop rest ih =>
    simp only [replace?, Option.bind_eq_bind, Option.pure_def, Option.bind_eq_some_iff,
      Option.some.injEq] at h
    obtain ⟨slot, hslot, part, hpart, new, hnew, rfl⟩ := h
    simp only [at?, length_setPart hpart, hslot, Option.bind_eq_bind, Option.bind_some,
      part?_setPart hpart]
    exact ih hnew

/-- Of two replacements at the same place, the second one counts. -/
theorem replace?_replace? {v : Content} (h : c.replace? hops v = some d) :
    d.replace? hops w = c.replace? hops w := by
  induction hops generalizing c d with
  | nil => rfl
  | cons hop rest ih =>
    simp only [replace?, Option.bind_eq_bind, Option.pure_def, Option.bind_eq_some_iff,
      Option.some.injEq] at h
    obtain ⟨slot, hslot, part, hpart, new, hnew, rfl⟩ := h
    simp only [replace?, length_setPart hpart, hslot, Option.bind_eq_bind, Option.bind_some,
      part?_setPart hpart, hpart, setPart_setPart, ih hnew]

/-- Putting back what is there changes nothing. -/
theorem replace?_at? (h : c.at? hops = some d) : c.replace? hops d = some c := by
  induction hops generalizing c with
  | nil => rw [replace?, ← Option.some.inj h]
  | cons hop rest ih =>
    simp only [at?, Option.bind_eq_bind, Option.bind_eq_some_iff] at h
    obtain ⟨slot, hslot, part, hpart, hrest⟩ := h
    simp only [replace?, hslot, hpart, Option.bind_eq_bind, Option.bind_some, ih hrest,
      setPart_of_part? hpart, Option.pure_def]

end Content

end DocSelect
