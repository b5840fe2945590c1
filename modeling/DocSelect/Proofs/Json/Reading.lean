import DocSelect.Proofs.Copying
import DocSelect.Proofs.Json.Scalars

/-!
# Reading what is laid out

Rules for the texts that the reader accepts, one for each kind of value: which text stands for a
value when the texts of its parts do. White space may stand before a part, before a closing bracket
and after a colon. Items and entries are read by the same loop, so the rules for them are about one
list of parts.
-/
namespace DocSelect.Json

def Opens (cs : List Char) : Prop :=
  ∃ c ds, cs = c :: ds ∧ isSpace c = false ∧ c ≠ ']' ∧ c ≠ '\x7d'

theorem Opens.append {cs : List Char} (h : Opens cs) (ds : List Char) : Opens (cs ++ ds) := by
  obtain ⟨c, cs, rfl, hc⟩ := h
  exact ⟨c, cs ++ ds, rfl, hc⟩

theorem Opens.skipSpace {cs : List Char} (h : Opens cs) : Json.skipSpace cs = cs := by
  obtain ⟨c, cs, rfl, hc, -⟩ := h
  exact skipSpace_cons hc cs

theorem Opens.one_le_length {cs : List Char} (h : Opens cs) : 1 ≤ cs.length := by
  obtain ⟨c, cs, rfl, -⟩ := h
  exact Nat.succ_pos _

variable {α : Type}

/-- The text stands for this: a reader takes it, after white space and before anything that is not
part of a number. -/
structure Reads (one : Reader α) (x : α) (cs : List Char) : Prop where
  opens : Opens cs
  read {a rest : List Char} : Blank a → Ends rest → one (a ++ (cs ++ rest)) = some (x, rest)

-- ---------------------------------------------------------------------------
-- Parts between brackets
-- ---------------------------------------------------------------------------

/-- Reads parts with commas between them up to a closing bracket, the first of which may begin
here. -/
def readParts (one : Reader α) (close : Char) : (fuel : Nat) → Reader (List α)
  | 0, _ => none
  | fuel + 1, cs => do
    let (x, cs) ← one cs
    match skipSpace cs with
    | ',' :: cs =>
      let (xs, cs) ← readParts one close fuel cs
      return (x :: xs, cs)
    | c :: cs => if c = close then some ([x], cs) else none
    | [] => none

theorem readItems_eq (value : Reader Content) (fuel : Nat) (cs : List Char) :
    readItems value fuel cs = readParts value ']' fuel cs := by
  induction fuel generalizing cs with
  | zero => rfl
  | succ fuel ih =>
    simp only [readItems, readParts, ih]
    congr 1
    funext p
    split
    · rename_i heq
      simp [heq]
    · rename_i heq
      simp [heq]
    · rename_i hclose
      split
      · grind
      · rename_i heq
        exact (if_neg fun hc => hclose _ (hc ▸ heq)).symm
      · rfl

theorem readEntries_eq (value : Reader Content) (fuel : Nat) (cs : List Char) :
    readEntries value fuel cs = readParts (readEntry value) '\x7d' fuel cs := by
  induction fuel generalizing cs with
  | zero => rfl
  | succ fuel ih =>
    simp only [readEntries, readParts, ih]
    congr 1
    funext p
    split
    · rename_i heq
      simp [heq]
    · rename_i heq
      simp [heq]
    · rename_i hclose
      split
      · grind
      · rename_i heq
        exact (if_neg fun hc => hclose _ (hc ▸ heq)).symm
      · rfl

structure ReadsParts (one : Reader α) (close : Char) (xs : List α) (cs : List Char) : Prop where
  opens : Opens cs
  length_le : xs.length ≤ cs.length
  read {a b rest : List Char} {fuel : Nat} : Blank a → Blank b → xs.length ≤ fuel →
    readParts one close fuel (a ++ (cs ++ (b ++ close :: rest))) = some (xs, rest)

structure Closes (close : Char) : Prop where
  space : isSpace close = false
  ne_comma : close ≠ ','
  ends (rest : List Char) : Ends (close :: rest)

theorem Closes.bracket : Closes ']' := ⟨by decide, by decide, .cons (by decide)⟩

theorem Closes.brace : Closes '\x7d' := ⟨by decide, by decide, .cons (by decide)⟩

namespace ReadsParts

variable {one : Reader α} {close : Char} {x : α} {xs : List α} {a cs ds : List Char}

theorem last (hclose : Closes close) (h : Reads one x cs) : ReadsParts one close [x] cs where
  opens := h.opens
  length_le := h.opens.one_le_length
  read := by
    intro a b rest fuel ha hb hfuel
    obtain ⟨fuel, rfl⟩ := Nat.exists_eq_add_one.2 hfuel
    have hend := hb.ends_append (hclose.ends rest)
    simp only [readParts, h.read ha hend, hb.skipSpace_append, skipSpace_cons hclose.space,
      Option.bind_eq_bind, Option.bind_some]
    split
    · rename_i heq
      exact absurd (List.cons.inj heq).1 hclose.ne_comma
    · rename_i heq
      obtain ⟨rfl, rfl⟩ := List.cons.inj heq
      rw [if_pos rfl]
    · rename_i heq
      cases heq

theorem cons (h : Reads one x cs) (ha : Blank a) (ht : ReadsParts one close xs ds) :
    ReadsParts one close (x :: xs) (cs ++ ',' :: (a ++ ds)) where
  opens := h.opens.append _
  length_le := by
    have := h.opens.one_le_length
    have := ht.length_le
    simp only [List.length_append, List.length_cons]
    omega
  read := by
    intro a' b rest fuel ha' hb hfuel
    obtain ⟨fuel, rfl⟩ := Nat.exists_eq_add_one.2 (Nat.zero_lt_of_lt hfuel)
    have hend : Ends (',' :: (a ++ (ds ++ (b ++ close :: rest)))) := .cons (by decide) _
    have hx := h.read ha' hend
    have hxs : readParts one close fuel (a ++ (ds ++ (b ++ close :: rest))) = some (xs, rest) :=
      ht.read ha hb (Nat.le_of_succ_le_succ hfuel)
    rw [readParts]
    simp only [List.append_assoc, List.cons_append]
    simp only [hx, skipSpace_cons (show isSpace ',' = false by decide), hxs, Option.bind_eq_bind,
      Option.bind_some]
    rfl

end ReadsParts

-- ---------------------------------------------------------------------------
-- Values
-- ---------------------------------------------------------------------------

variable {levels : Nat} {cs : List Char}

theorem readValue_skip {a : List Char} (ha : Blank a) :
    readValue levels (a ++ cs) = readValue levels cs := by
  rw [readValue, readValue, ha.skipSpace_append]

theorem readWord_append (word : String) (value : Scalar) (rest : List Char) :
    readWord word value (word.toList ++ rest) = some (.scalar value, rest) := by
  rw [readWord, if_pos (List.isPrefixOf_iff_prefix.2 (List.prefix_append ..)),
    ← String.length_toList, List.drop_left]

theorem opens_number {c : Char} (h : c.isDigit = true ∨ c = '-') (cs : List Char) :
    Opens (c :: cs) := by
  have hne {d : Char} (hd : (d.isDigit || d = '-') = false) : c ≠ d := by
    rintro rfl
    rw [Bool.or_eq_false_iff, decide_eq_false_iff_not] at hd
    exact h.elim (by simp [hd.1]) hd.2
  refine ⟨c, cs, rfl, ?_, hne (by decide), hne (by decide)⟩
  simp only [isSpace, Bool.or_eq_false_iff, decide_eq_false_iff_not]
  exact ⟨⟨⟨hne (by decide), hne (by decide)⟩, hne (by decide)⟩, hne (by decide)⟩

theorem readValue_number {c : Char} (h : c.isDigit = true ∨ c = '-') (cs : List Char) :
    readValue levels (c :: cs) = (readNumber (c :: cs)).map fun (value, cs) =>
      (.scalar value, cs) := by
  rw [readValue, (opens_number h cs).skipSpace]
  split
  all_goals
    first
    | rfl
    | rename_i heq
      obtain ⟨rfl, -⟩ := List.cons.inj heq
      rcases h with h | h <;> exact absurd h (by decide)

theorem reads_scalar {a : Scalar} (h : ∀ x, a ≠ .float x) :
    Reads (readValue levels) (.scalar a) (writeScalar a) := by
  cases a with
  | null =>
    refine ⟨⟨_, _, rfl, by decide⟩, fun ha _ => ?_⟩
    rw [readValue_skip ha, readValue]
    exact readWord_append "null" .null _
  | bool b =>
    cases b with
    | false =>
      refine ⟨⟨_, _, rfl, by decide⟩, fun ha _ => ?_⟩
      rw [readValue_skip ha, readValue]
      exact readWord_append "false" (.bool false) _
    | true =>
      refine ⟨⟨_, _, rfl, by decide⟩, fun ha _ => ?_⟩
      rw [readValue_skip ha, readValue]
      exact readWord_append "true" (.bool true) _
  | int i =>
    obtain ⟨c, cs, htext, hc⟩ := writeScalar_int_head i
    refine ⟨htext ▸ opens_number hc cs, fun {a rest} ha hrest => ?_⟩
    have hread := readNumber_int i hrest
    rw [htext, List.cons_append] at hread ⊢
    rw [readValue_skip ha, readValue_number hc, hread]
    rfl
  | float x => exact absurd rfl (h x)
  | string s =>
    refine ⟨⟨_, _, rfl, by decide⟩, fun {a rest} ha _ => ?_⟩
    rw [readValue_skip ha, writeScalar, writeString_append, readValue, skipSpace_cons (by decide)]
    simp only [readCharacters_escaped, Option.map_some, String.ofList_toList]
    rfl

theorem readEntry_append {key : String} {c : Content} {a b rest : List Char} (ha : Blank a)
    (hb : Blank b) (h : Reads (readValue levels) c cs) (hrest : Ends rest) :
    readEntry (readValue levels) (a ++ (writeString key ++ ':' :: (b ++ (cs ++ rest)))) =
      some ((key, c), rest) := by
  rw [readEntry, ha.skipSpace_append, writeString_append, skipSpace_cons (by decide)]
  simp only [readCharacters_escaped, skipSpace_cons (show isSpace ':' = false by decide),
    h.read hb hrest, Option.bind_eq_bind, Option.bind_some, String.ofList_toList]
  rfl

theorem reads_entry (key : String) {c : Content} {b : List Char} (hb : Blank b)
    (h : Reads (readValue levels) c cs) :
    Reads (readEntry (readValue levels)) (key, c) (writeString key ++ ':' :: (b ++ cs)) where
  opens := ⟨_, _, rfl, by decide⟩
  read ha hrest := by
    simpa only [List.append_assoc, List.cons_append] using readEntry_append ha hb h hrest

theorem readValue_slice {a : List Char} (ha : Blank a) (h : Opens cs) :
    readValue (levels + 1) ('[' :: (a ++ cs)) =
      (readParts (readValue levels) ']' cs.length cs).map fun (items, cs) =>
        (.slice items, cs) := by
  rw [readValue, skipSpace_cons (by decide)]
  simp only [readItems_eq, ha.skipSpace_append, h.skipSpace]
  split
  · obtain ⟨c, ds, heq, -, hclose, -⟩ := h
    exact absurd (List.cons.inj heq).1.symm hclose
  · rfl

theorem readValue_map {a : List Char} (ha : Blank a) (h : Opens cs) :
    readValue (levels + 1) ('\x7b' :: (a ++ cs)) =
      (readParts (readEntry (readValue levels)) '\x7d' cs.length cs).map
        fun (entries, cs) => (.map (Dict.ofList entries).entries, cs) := by
  rw [readValue, skipSpace_cons (by decide)]
  simp only [readEntries_eq, ha.skipSpace_append, h.skipSpace]
  split
  · obtain ⟨c, ds, heq, -, -, hclose⟩ := h
    exact absurd (List.cons.inj heq).1.symm hclose
  · rfl

theorem reads_slice_nil : Reads (readValue (levels + 1)) (.slice []) ['[', ']'] where
  opens := ⟨_, _, rfl, by decide⟩
  read ha _ := by
    rw [readValue_skip ha]
    rfl

theorem reads_map_nil : Reads (readValue (levels + 1)) (.map []) ['\x7b', '\x7d'] where
  opens := ⟨_, _, rfl, by decide⟩
  read ha _ := by
    rw [readValue_skip ha]
    rfl

theorem ReadsParts.read_all {one : Reader α} {close : Char} {xs : List α} {b : List Char}
    (h : ReadsParts one close xs cs) (hb : Blank b) (rest : List Char) :
    readParts one close (cs ++ (b ++ close :: rest)).length (cs ++ (b ++ close :: rest)) =
      some (xs, rest) := by
  refine h.read Blank.nil hb (h.length_le.trans ?_)
  rw [List.length_append]
  exact Nat.le_add_right ..

theorem reads_slice {items : List Content} {a b : List Char} (ha : Blank a) (hb : Blank b)
    (h : ReadsParts (readValue levels) ']' items cs) :
    Reads (readValue (levels + 1)) (.slice items) ('[' :: (a ++ (cs ++ (b ++ [']'])))) where
  opens := ⟨_, _, rfl, by decide⟩
  read {a' rest} ha' _ := by
    rw [readValue_skip ha']
    simp only [List.cons_append, List.append_assoc, List.nil_append]
    rw [readValue_slice ha (h.opens.append _), h.read_all hb]
    rfl

theorem reads_map {entries : List (String × Content)} {a b : List Char} (ha : Blank a)
    (hb : Blank b) (hkeys : (Assoc.keys entries).Nodup)
    (h : ReadsParts (readEntry (readValue levels)) '\x7d' entries cs) :
    Reads (readValue (levels + 1)) (.map entries) ('\x7b' :: (a ++ (cs ++ (b ++ ['\x7d'])))) where
  opens := ⟨_, _, rfl, by decide⟩
  read {a' rest} ha' _ := by
    rw [readValue_skip ha']
    simp only [List.cons_append, List.append_assoc, List.nil_append]
    rw [readValue_map ha (h.opens.append _), h.read_all hb, Option.map_some]
    simp only [Dict.entries_ofList hkeys]

end DocSelect.Json
