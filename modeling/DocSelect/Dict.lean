/-!
# Dictionaries in insertion order

A dictionary lists its keys in the order in which they came in. A key that is inserted again keeps
its place and takes the new value, so no key is ever listed twice.
-/
namespace DocSelect

universe u

/-! ## Lists of keys and values -/

namespace Assoc

variable {α : Type u}

def keys (entries : List (String × α)) : List String := entries.map Prod.fst

def find? (key : String) : List (String × α) → Option α
  | [] => none
  | (k, v) :: rest => if k = key then some v else find? key rest

/-- Gives a key a value: in place where the key is listed, at the end where it is not. -/
def insert (key : String) (value : α) : List (String × α) → List (String × α)
  | [] => [(key, value)]
  | (k, v) :: rest => if k = key then (k, value) :: rest else (k, v) :: insert key value rest

/-- Drops a key's entry. -/
def erase (key : String) : List (String × α) → List (String × α)
  | [] => []
  | (k, v) :: rest => if k = key then rest else (k, v) :: erase key rest

theorem find?_insert_self {key : String} {value : α} {entries : List (String × α)} :
    find? key (insert key value entries) = some value := by
  induction entries with
  | nil => simp [insert, find?]
  | cons e rest ih => by_cases h : e.1 = key <;> simp [insert, find?, h, ih]

theorem find?_insert_of_ne {key k : String} {value : α} {entries : List (String × α)}
    (h : k ≠ key) : find? k (insert key value entries) = find? k entries := by
  induction entries with
  | nil => simp [insert, find?, h.symm]
  | cons e rest ih =>
    by_cases hk : e.1 = key
    · simp [insert, find?, hk, h.symm]
    · simp [insert, find?, hk, ih]

theorem insert_insert {key : String} {value other : α} {entries : List (String × α)} :
    insert key value (insert key other entries) = insert key value entries := by
  induction entries with
  | nil => simp [insert]
  | cons e rest ih => by_cases h : e.1 = key <;> simp [insert, h, ih]

theorem insert_of_find? {key : String} {value : α} {entries : List (String × α)}
    (h : find? key entries = some value) : insert key value entries = entries := by
  induction entries with
  | nil => simp [find?] at h
  | cons e rest ih =>
    by_cases hk : e.1 = key
    · simp only [find?, hk, if_true, Option.some.injEq] at h
      simp [insert, hk, ← h, Prod.ext_iff]
    · simp only [find?, hk, if_false] at h
      simp [insert, hk, ih h]

theorem find?_erase_of_ne {key k : String} {entries : List (String × α)} (h : k ≠ key) :
    find? k (erase key entries) = find? k entries := by
  induction entries with
  | nil => rfl
  | cons e rest ih =>
    by_cases hk : e.1 = key
    · simp [erase, find?, hk, h.symm]
    · simp [erase, find?, hk, ih]

theorem find?_eq_none_iff {key : String} {entries : List (String × α)} :
    find? key entries = none ↔ key ∉ keys entries := by
  induction entries with
  | nil => simp [find?, keys]
  | cons e rest ih =>
    simp only [keys, List.map_cons, List.mem_cons] at ih ⊢
    by_cases hk : e.1 = key
    · simp [find?, hk]
    · simp [find?, hk, ih, Ne.symm hk]

theorem mem_of_find? {key : String} {value : α} {entries : List (String × α)}
    (h : find? key entries = some value) : (key, value) ∈ entries := by
  induction entries with
  | nil => simp [find?] at h
  | cons e rest ih =>
    by_cases hk : e.1 = key
    · simp only [find?, hk, if_true, Option.some.injEq] at h
      exact List.mem_cons.2 (.inl (Prod.ext hk.symm h.symm))
    · simp only [find?, hk, if_false] at h
      exact List.mem_cons_of_mem _ (ih h)

theorem find?_of_mem {key : String} {value : α} {entries : List (String × α)}
    (hn : (keys entries).Nodup) (h : (key, value) ∈ entries) :
    find? key entries = some value := by
  induction entries with
  | nil => simp at h
  | cons e rest ih =>
    simp only [keys, List.map_cons, List.nodup_cons] at hn
    rcases List.mem_cons.1 h with rfl | h
    · simp [find?]
    · have hne : e.1 ≠ key := fun he => hn.1 (he ▸ List.mem_map.2 ⟨_, h, rfl⟩)
      simp [find?, hne, ih hn.2 h]

theorem mem_keys_insert {key k : String} {value : α} {entries : List (String × α)} :
    k ∈ keys (insert key value entries) ↔ k = key ∨ k ∈ keys entries := by
  induction entries with
  | nil => simp [insert, keys]
  | cons e rest ih =>
    simp only [keys, List.map_cons, List.mem_cons] at ih ⊢
    unfold insert
    split <;> rename_i h
    · simp only [List.map_cons, List.mem_cons, h]
      grind
    · simp only [List.map_cons, List.mem_cons, ih]
      grind

theorem nodup_keys_insert {key : String} {value : α} {entries : List (String × α)}
    (h : (keys entries).Nodup) : (keys (insert key value entries)).Nodup := by
  induction entries with
  | nil => simp [insert, keys]
  | cons e rest ih =>
    simp only [keys, List.map_cons, List.nodup_cons] at h ih ⊢
    unfold insert
    split <;> rename_i hk
    · simpa using h
    · simp only [List.map_cons, List.nodup_cons]
      refine ⟨fun hm => ?_, ih h.2⟩
      have := mem_keys_insert.1 (show e.1 ∈ keys (insert key value rest) from hm)
      exact this.elim hk h.1

theorem keys_erase_sublist {key : String} (entries : List (String × α)) :
    (keys (erase key entries)).Sublist (keys entries) := by
  induction entries with
  | nil => simp [erase, keys]
  | cons e rest ih =>
    simp only [keys, List.map_cons] at ih ⊢
    unfold erase
    split
    · exact List.sublist_cons_self ..
    · simpa using ih.cons_cons e.1

end Assoc

/-- A dictionary: entries in insertion order, each key once. -/
structure Dict (α : Type u) where
  entries : List (String × α)
  nodup : (Assoc.keys entries).Nodup

namespace Dict

variable {α : Type u}

def empty : Dict α := ⟨[], by simp [Assoc.keys]⟩

instance : Inhabited (Dict α) := ⟨empty⟩

def keys (d : Dict α) : List String := Assoc.keys d.entries

def values (d : Dict α) : List α := d.entries.map Prod.snd

def size (d : Dict α) : Nat := d.entries.length

def find? (d : Dict α) (key : String) : Option α := Assoc.find? key d.entries

def contains (d : Dict α) (key : String) : Bool := (d.find? key).isSome

/-- Gives a key a value; a key that is there already keeps its place. -/
def insert (d : Dict α) (key : String) (value : α) : Dict α :=
  ⟨Assoc.insert key value d.entries, Assoc.nodup_keys_insert d.nodup⟩

/-- Drops a key; the others keep their order. -/
def erase (d : Dict α) (key : String) : Dict α :=
  ⟨Assoc.erase key d.entries, (Assoc.keys_erase_sublist d.entries).nodup d.nodup⟩

@[simp] theorem find?_insert_self (d : Dict α) (key : String) (value : α) :
    (d.insert key value).find? key = some value := Assoc.find?_insert_self

theorem find?_insert_of_ne (d : Dict α) {key k : String} (value : α) (h : k ≠ key) :
    (d.insert key value).find? k = d.find? k := Assoc.find?_insert_of_ne h

theorem find?_erase_of_ne (d : Dict α) {key k : String} (h : k ≠ key) :
    (d.erase key).find? k = d.find? k := Assoc.find?_erase_of_ne h

theorem find?_eq_none_iff (d : Dict α) {key : String} : d.find? key = none ↔ key ∉ d.keys :=
  Assoc.find?_eq_none_iff

def insertAll (d : Dict α) (entries : List (String × α)) : Dict α :=
  entries.foldl (fun d e => d.insert e.1 e.2) d

/-- The dictionary of a list of entries: a repeated key has its first place and its last value. -/
def ofList (entries : List (String × α)) : Dict α := empty.insertAll entries

theorem mem_of_find? (d : Dict α) {key : String} {value : α} (h : d.find? key = some value) :
    (key, value) ∈ d.entries := Assoc.mem_of_find? h

theorem find?_of_mem (d : Dict α) {key : String} {value : α} (h : (key, value) ∈ d.entries) :
    d.find? key = some value := Assoc.find?_of_mem d.nodup h

theorem mem_of_find?_insertAll {entries : List (String × α)} {d : Dict α} {key : String}
    {value : α} (h : (d.insertAll entries).find? key = some value) :
    d.find? key = some value ∨ (key, value) ∈ entries := by
  induction entries generalizing d with
  | nil => exact .inl h
  | cons e rest ih =>
    rcases ih (d := d.insert e.1 e.2) h with hd | hr
    · by_cases hk : key = e.1
      · subst hk
        rw [find?_insert_self, Option.some.injEq] at hd
        exact .inr (by simp [← hd])
      · exact .inl (by rwa [find?_insert_of_ne d e.2 hk] at hd)
    · exact .inr (List.mem_cons_of_mem _ hr)

theorem mem_of_find?_ofList {entries : List (String × α)} {key : String} {value : α}
    (h : (ofList entries).find? key = some value) : (key, value) ∈ entries := by
  rcases mem_of_find?_insertAll h with h | h
  · simp [find?, empty, Assoc.find?] at h
  · exact h

end Dict

end DocSelect
