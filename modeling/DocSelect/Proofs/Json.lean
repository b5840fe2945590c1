import DocSelect.Format
import DocSelect.Proofs.Json.Reading

/-!
# Documents written and read again

A document that has been written, in either form, is read as the content that it was written from:
the same kinds, integers, strings, items, keys and their order. Floating point numbers are left out,
since their text may be rounded, and so is what nests deeper than a reader goes.
-/
namespace DocSelect

-- ---------------------------------------------------------------------------
-- Contents that can be read again
-- ---------------------------------------------------------------------------

namespace Content

mutual

def depth : Content → Nat
  | scalar _ => 0
  | slice items => depthItems items + 1
  | map entries => depthEntries entries + 1

def depthItems : List Content → Nat
  | [] => 0
  | c :: cs => max c.depth (depthItems cs)

def depthEntries : List (String × Content) → Nat
  | [] => 0
  | (_, c) :: es => max c.depth (depthEntries es)

end

mutual

def scalars : Content → List Scalar
  | scalar a => [a]
  | slice items => scalarsItems items
  | map entries => scalarsEntries entries

def scalarsItems : List Content → List Scalar
  | [] => []
  | c :: cs => c.scalars ++ scalarsItems cs

def scalarsEntries : List (String × Content) → List Scalar
  | [] => []
  | (_, c) :: es => c.scalars ++ scalarsEntries es

end

theorem depth_le_of_mem_items {items : List Content} {c : Content} (h : c ∈ items) :
    c.depth ≤ depthItems items := by
  induction items with
  | nil => cases h
  | cons d items ih =>
    rw [depthItems]
    rcases List.mem_cons.1 h with rfl | h
    · exact Nat.le_max_left ..
    · exact (ih h).trans (Nat.le_max_right ..)

theorem depth_le_of_mem_entries {entries : List (String × Content)} {e : String × Content}
    (h : e ∈ entries) : e.2.depth ≤ depthEntries entries := by
  induction entries with
  | nil => cases h
  | cons d entries ih =>
    rw [depthEntries]
    rcases List.mem_cons.1 h with rfl | h
    · exact Nat.le_max_left ..
    · exact (ih h).trans (Nat.le_max_right ..)

theorem scalars_subset_items {items : List Content} {c : Content} (h : c ∈ items) :
    c.scalars ⊆ scalarsItems items := by
  induction items with
  | nil => cases h
  | cons d items ih =>
    rw [scalarsItems]
    rcases List.mem_cons.1 h with rfl | h
    · exact List.subset_append_left ..
    · exact List.Subset.trans (ih h) (List.subset_append_right ..)

theorem scalars_subset_entries {entries : List (String × Content)} {e : String × Content}
    (h : e ∈ entries) : e.2.scalars ⊆ scalarsEntries entries := by
  induction entries with
  | nil => cases h
  | cons d entries ih =>
    rw [scalarsEntries]
    rcases List.mem_cons.1 h with rfl | h
    · exact List.subset_append_left ..
    · exact List.Subset.trans (ih h) (List.subset_append_right ..)

/-- No floating point number is in the content, its containers nest at most `levels` deep, and no
map has a key twice. -/
inductive Legible : (levels : Nat) → Content → Prop where
  | scalar {levels : Nat} {a : Scalar} (h : ∀ x, a ≠ .float x) : Legible levels (.scalar a)
  | slice {levels : Nat} {items : List Content} (h : ∀ c ∈ items, Legible levels c) :
    Legible (levels + 1) (.slice items)
  | map {levels : Nat} {entries : List (String × Content)} (hkeys : (Assoc.keys entries).Nodup)
    (h : ∀ e ∈ entries, Legible levels e.2) : Legible (levels + 1) (.map entries)

end Content

/-- A store keeps no key twice, so what a node holds is legible unless it has a floating point
number or is too deep. -/
theorem Store.legible_treeWithin (s : Store) {fuel levels : Nat} {r : Ref}
    (hfloat : ∀ x, Scalar.float x ∉ (s.treeWithin fuel r).content.scalars)
    (hdepth : (s.treeWithin fuel r).content.depth ≤ levels) :
    (s.treeWithin fuel r).content.Legible levels := by
  induction fuel generalizing r levels with
  | zero => exact .scalar fun _ h => by cases h
  | succ fuel ih =>
    rw [treeWithin] at hfloat hdepth ⊢
    cases hd : s.data r with
    | scalar a =>
      refine .scalar ?_
      rintro x rfl
      exact hfloat x (by rw [hd]; exact List.mem_singleton_self _)
    | slice items =>
      simp only [hd, Tree.content, Tree.contents_eq_map, List.map_map, Content.depth,
        Content.scalars] at hfloat hdepth ⊢
      obtain ⟨levels, rfl⟩ := Nat.exists_eq_add_one.2 (Nat.zero_lt_of_lt hdepth)
      refine .slice fun c hc => ?_
      have hle := Content.depth_le_of_mem_items hc
      have hsub := Content.scalars_subset_items hc
      obtain ⟨q, -, rfl⟩ := List.mem_map.1 hc
      exact ih (fun x hx => hfloat x (hsub hx)) (hle.trans (Nat.le_of_succ_le_succ hdepth))
    | map entries =>
      simp only [hd, Tree.content, Tree.entryContents_eq_map, List.map_map, Content.depth,
        Content.scalars] at hfloat hdepth ⊢
      obtain ⟨levels, rfl⟩ := Nat.exists_eq_add_one.2 (Nat.zero_lt_of_lt hdepth)
      refine .map ?_ fun e he => ?_
      · rw [Assoc.keys, List.map_map]
        exact entries.nodup
      · have hle := Content.depth_le_of_mem_entries he
        have hsub := Content.scalars_subset_entries he
        obtain ⟨q, -, rfl⟩ := List.mem_map.1 he
        exact ih (fun x hx => hfloat x (hsub hx)) (hle.trans (Nat.le_of_succ_le_succ hdepth))

-- ---------------------------------------------------------------------------
-- The two forms
-- ---------------------------------------------------------------------------

namespace Json

variable {levels : Nat} {c : Content}

theorem readsParts_compactItems {c : Content} {cs : List Content}
    (h : ∀ d ∈ c :: cs, Reads (readValue levels) d (compact d)) :
    ReadsParts (readValue levels) ']' (c :: cs) (compactItems (c :: cs)) := by
  induction cs generalizing c with
  | nil => exact .last .bracket (h c List.mem_cons_self)
  | cons d cs ih =>
    exact .cons (h c List.mem_cons_self) .nil (ih fun e he => h e (List.mem_cons_of_mem _ he))

theorem readsParts_compactEntries {e : String × Content} {es : List (String × Content)}
    (h : ∀ d ∈ e :: es, Reads (readValue levels) d.2 (compact d.2)) :
    ReadsParts (readEntry (readValue levels)) '\x7d' (e :: es) (compactEntries (e :: es)) := by
  induction es generalizing e with
  | nil => exact .last .brace (reads_entry _ .nil (h e List.mem_cons_self))
  | cons d es ih =>
    have hentry := reads_entry e.1 .nil (h e List.mem_cons_self)
    have := ReadsParts.cons hentry .nil (ih fun e he => h e (List.mem_cons_of_mem _ he))
    simpa only [compactEntries, List.append_assoc, List.cons_append, List.nil_append] using this

theorem reads_compact (h : c.Legible levels) : Reads (readValue levels) c (compact c) := by
  induction h with
  | scalar h => exact reads_scalar h
  | @slice _ items _ ih =>
    cases items with
    | nil => exact reads_slice_nil
    | cons c cs => exact reads_slice .nil .nil (readsParts_compactItems ih)
  | @map _ entries hkeys _ ih =>
    cases entries with
    | nil => exact reads_map_nil
    | cons e es => exact reads_map .nil .nil hkeys (readsParts_compactEntries ih)

theorem blank_newLine (depth : Nat) : Blank (newLine depth) := by
  intro c hc
  rcases List.mem_cons.1 hc with rfl | hc
  · decide
  · rw [List.eq_of_mem_replicate hc]
    decide

theorem readsParts_indentedItems {depth : Nat} {c : Content} {cs : List Content}
    (h : ∀ d ∈ c :: cs, Reads (readValue levels) d (indented depth d)) :
    ∃ text, indentedItems depth (c :: cs) = newLine depth ++ text ∧
      ReadsParts (readValue levels) ']' (c :: cs) text := by
  induction cs generalizing c with
  | nil => exact ⟨_, rfl, .last .bracket (h c List.mem_cons_self)⟩
  | cons d cs ih =>
    obtain ⟨text, htext, hrest⟩ := ih fun e he => h e (List.mem_cons_of_mem _ he)
    refine ⟨_, ?_, .cons (h c List.mem_cons_self) (blank_newLine depth) hrest⟩
    rw [indentedItems, htext, List.append_assoc]
    simp

theorem readsParts_indentedEntries {depth : Nat} {e : String × Content}
    {es : List (String × Content)}
    (h : ∀ d ∈ e :: es, Reads (readValue levels) d.2 (indented depth d.2)) :
    ∃ text, indentedEntries depth (e :: es) = newLine depth ++ text ∧
      ReadsParts (readEntry (readValue levels)) '\x7d' (e :: es) text := by
  have hspace : Blank [' '] := by
    intro c hc
    rw [List.mem_singleton.1 hc]
    decide
  have hentry := reads_entry e.1 hspace (h e List.mem_cons_self)
  induction es generalizing e with
  | nil => exact ⟨_, by simp [indentedEntries], .last .brace hentry⟩
  | cons d es ih =>
    have hes : ∀ f ∈ d :: es, Reads (readValue levels) f.2 (indented depth f.2) :=
      fun f hf => h f (List.mem_cons_of_mem _ hf)
    obtain ⟨text, htext, hrest⟩ := ih hes (reads_entry _ hspace (hes d List.mem_cons_self))
    refine ⟨_, ?_, .cons hentry (blank_newLine depth) hrest⟩
    rw [indentedEntries, htext]
    · simp
    · exact fun h => by cases h

theorem reads_indented (h : c.Legible levels) (depth : Nat) :
    Reads (readValue levels) c (indented depth c) := by
  induction h generalizing depth with
  | scalar h => exact reads_scalar h
  | @slice _ items _ ih =>
    cases items with
    | nil => exact reads_slice_nil
    | cons c cs =>
      obtain ⟨text, htext, hparts⟩ := readsParts_indentedItems fun d hd => ih d hd (depth + 1)
      have := reads_slice (blank_newLine (depth + 1)) (blank_newLine depth) hparts
      simpa only [indented, htext, List.append_assoc, List.cons_append] using this
  | @map _ entries hkeys _ ih =>
    cases entries with
    | nil => exact reads_map_nil
    | cons e es =>
      obtain ⟨text, htext, hparts⟩ := readsParts_indentedEntries fun d hd => ih d hd (depth + 1)
      have := reads_map (blank_newLine (depth + 1)) (blank_newLine depth) hkeys hparts
      simpa only [indented, htext, List.append_assoc, List.cons_append] using this

theorem read?_document (h : c.Legible maxNesting) (isCompact : Bool) :
    read? (String.ofList (document isCompact c)) = some c := by
  have hreads : Reads (readValue maxNesting) c (if isCompact then compact c else indented 0 c) := by
    split
    · exact reads_compact h
    · exact reads_indented h 0
  have hread := hreads.read .nil (.cons (c := '\n') (by decide) [])
  rw [read?, String.toList_ofList, document]
  rw [List.nil_append] at hread
  simp only [hread]
  rfl

end Json

-- ---------------------------------------------------------------------------
-- Values
-- ---------------------------------------------------------------------------

namespace Store

theorem keys_buildEntries (es : List (String × Content)) (s : Store) :
    Assoc.keys (s.buildEntries es).1 = Assoc.keys es := by
  induction es generalizing s with
  | nil => rfl
  | cons e es ih => exact congrArg (e.1 :: ·) (ih _)

variable {u : Store}

theorem holds_buildItems {cs : List Content}
    (ih : ∀ c ∈ cs, ∀ {s : Store}, KeepsNew s (s.build c).2 u → u.Holds (s.build c).1 c)
    {s : Store} (h : KeepsNew s (s.buildItems cs).2 u) :
    List.Forall₂ u.Holds (s.buildItems cs).1 cs := by
  induction cs generalizing s with
  | nil => exact .nil
  | cons c cs ihs =>
    exact .cons (ih c List.mem_cons_self (h.first (grown_buildItems cs _)))
      (ihs (fun d hd => ih d (List.mem_cons_of_mem _ hd)) (h.second (grown_build c s)))

theorem holds_buildEntries {es : List (String × Content)}
    (ih : ∀ e ∈ es, ∀ {s : Store}, KeepsNew s (s.build e.2).2 u →
      u.Holds (s.build e.2).1 e.2) {s : Store} (h : KeepsNew s (s.buildEntries es).2 u) :
    Assoc.Alike u.Holds (s.buildEntries es).1 es := by
  induction es generalizing s with
  | nil => exact .nil
  | cons e es ihs =>
    exact .cons ⟨rfl, ih e List.mem_cons_self (h.first (grown_buildEntries es _))⟩
      (ihs (fun d hd => ih d (List.mem_cons_of_mem _ hd)) (h.second (grown_build e.2 s)))

theorem holds_build {c : Content} {levels : Nat} (hc : c.Legible levels) {s : Store}
    (h : KeepsNew s (s.build c).2 u) : u.Holds (s.build c).1 c := by
  induction hc generalizing s with
  | scalar => exact .scalar (h.of_add (.refl s)).2
  | @slice _ items _ ih =>
    have hadd := h.of_add (grown_buildItems items s)
    exact .slice hadd.2 (holds_buildItems ih hadd.1)
  | @map _ entries hkeys _ ih =>
    have hadd := h.of_add (grown_buildEntries entries s)
    refine .map hadd.2 ?_
    rw [Dict.entries_ofList ((keys_buildEntries entries s).symm ▸ hkeys)]
    exact holds_buildEntries ih hadd.1

theorem resembles_build {levels : Nat} {s : Store} {r : Ref} (h : s.Grounded r)
    (hc : (s.content r).Legible levels) (t : Store) :
    s.Resembles (t.build (s.content r)).2 r (t.build (s.content r)).1 :=
  Holds.resembles ⟨h, rfl⟩ (holds_build hc fun _ _ => rfl)

end Store

namespace Format

/-- What is written for a value is read as what the value holds. A new value of it holds that too,
and is alike down to every node below. -/
theorem read_write {s : Store} {r : Ref} (hbranch : s.isBranch r = false)
    (hfloat : ∀ x, Scalar.float x ∉ (s.content r).scalars)
    (hdepth : (s.content r).depth ≤ 127) (isCompact : Bool) :
    read .json (write .json isCompact s r) = .ok (s.content r) ∧
      ∀ t : Store, (t.build (s.content r)).2.Holds (t.build (s.content r)).1 (s.content r) ∧
        (s.Grounded r → s.Resembles (t.build (s.content r)).2 r (t.build (s.content r)).1) := by
  have hlegible : (s.content r).Legible Json.maxNesting := s.legible_treeWithin hfloat hdepth
  refine ⟨?_, fun t => ⟨Store.holds_build hlegible fun _ _ => rfl,
    fun hg => Store.resembles_build hg hlegible t⟩⟩
  have hdoc : documents s r = [r] := by
    unfold documents
    split
    · rw [hbranch]
      rfl
    · rfl
  rw [read, write, hdoc, List.flatMap_singleton, Json.read?_document hlegible]

/-- Keys that are not in alphabetical order, the least integer, and characters that have to be
escaped. -/
def sample : Content :=
  .map [("z\n\"", .slice [.int Int64.minValue, .null, .map []]), ("a", .string "\x01\\é")]

theorem read_write_sample :
    let (r, s) := Store.empty.build sample
    read .json (write .json false s r) = .ok sample ∧
      ∀ t : Store, (t.build sample).2.Holds (t.build sample).1 sample ∧
        s.Resembles (t.build sample).2 r (t.build sample).1 := by
  let r := (Store.empty.build sample).1
  let s := (Store.empty.build sample).2
  have hcontent : s.content r = sample := by rfl
  have hfloat : ∀ x, Scalar.float x ∉ (s.content r).scalars := by
    have hscalars : sample.scalars = [.int Int64.minValue, .null, .string "\x01\\é"] := by rfl
    rw [hcontent, hscalars]
    simp
  have hdepth : (s.content r).depth ≤ 127 := by decide
  obtain ⟨hread, hbuild⟩ := read_write rfl hfloat hdepth false
  have hlegible : (s.content r).Legible 127 := s.legible_treeWithin hfloat hdepth
  rw [hcontent] at hread hbuild hlegible
  have hholds : s.Holds r sample := Store.holds_build hlegible fun _ _ => rfl
  exact ⟨hread, fun t => ⟨(hbuild t).1, (hbuild t).2 hholds.grounded⟩⟩

end Format

end DocSelect
