import DocSelect.Proofs.Copying
import Mathlib.Data.List.Induction

/-!
# Keys that come in more than once

A dictionary that is filled entry by entry lists its keys by the first entry of each, and holds the
value of the last one.
-/
namespace DocSelect

variable {α : Type}

namespace Assoc

def lastOf (key : String) (entries : List (String × α)) : Option α :=
  (entries.filter (·.1 = key)).getLast?.map Prod.snd

theorem lastOf_concat (key : String) (entries : List (String × α)) (e : String × α) :
    lastOf key (entries ++ [e]) = if e.1 = key then some e.2 else lastOf key entries := by
  by_cases h : e.1 = key <;> simp [lastOf, h]

theorem keys_insert_of_mem {key : String} {value : α} {entries : List (String × α)}
    (h : key ∈ keys entries) : keys (insert key value entries) = keys entries := by
  induction entries with
  | nil => exact absurd h List.not_mem_nil
  | cons e rest ih =>
    by_cases hk : e.1 = key
    · simp [insert, keys, hk]
    · have hrest : key ∈ keys rest := (List.mem_cons.1 h).resolve_left (Ne.symm hk)
      simpa [insert, keys, hk] using ih hrest

end Assoc

namespace Dict

theorem insertAll_append (d : Dict α) (entries others : List (String × α)) :
    d.insertAll (entries ++ others) = (d.insertAll entries).insertAll others :=
  List.foldl_append

theorem ofList_concat (entries : List (String × α)) (e : String × α) :
    ofList (entries ++ [e]) = (ofList entries).insert e.1 e.2 :=
  insertAll_append _ _ _

theorem keys_insert (d : Dict α) (key : String) (value : α) :
    (d.insert key value).keys = if key ∈ d.keys then d.keys else d.keys ++ [key] := by
  split
  · exact Assoc.keys_insert_of_mem ‹_›
  · rename_i hnew
    have hentries : (d.insert key value).entries = d.entries ++ [(key, value)] :=
      Assoc.insert_of_not_mem hnew
    rw [keys, hentries, Assoc.keys, List.map_append]
    rfl

theorem keys_ofList (entries : List (String × α)) :
    (ofList entries).keys = (Assoc.keys entries).eraseDups := by
  induction entries using List.reverseRecOn with
  | nil => rfl
  | append_singleton entries e ih =>
    have hkeys : Assoc.keys (entries ++ [e]) = Assoc.keys entries ++ [e.1] := List.map_append
    rw [ofList_concat, keys_insert, ih, hkeys, List.eraseDups_append]
    by_cases h : e.1 ∈ Assoc.keys entries <;> simp [h, List.removeAll, List.eraseDups_cons]

theorem find?_ofList (entries : List (String × α)) (key : String) :
    (ofList entries).find? key = Assoc.lastOf key entries := by
  induction entries using List.reverseRecOn with
  | nil => rfl
  | append_singleton entries e ih =>
    rw [ofList_concat, Assoc.lastOf_concat]
    split
    · rename_i h
      rw [← h, find?_insert_self]
    · rename_i h
      rw [find?_insert_of_ne _ _ (Ne.symm h), ih]

end Dict

end DocSelect
