import DocSelect.Proofs.Json
import DocSelect.Proofs.Reachable

/-!
# Compact documents on lines

A compact document has no line end in it, whatever its strings and keys are, since a line end in a
string is escaped. So the documents that are written for a result stand on a line each: those of a
branch on one line for each element, and that of anything else on one.
-/
namespace DocSelect

-- ---------------------------------------------------------------------------
-- One document
-- ---------------------------------------------------------------------------

namespace Json

theorem newline_not_mem_escape (c : Char) : '\n' ∉ escape c := by
  have hdigit : ∀ n < 16, hexDigit n ≠ '\n' := by decide
  unfold escape
  split
  · decide
  split
  · decide
  split
  · decide
  split
  · decide
  split
  · decide
  split
  · decide
  split
  · decide
  split
  · have hhigh := hdigit (c.toNat / 16) (by omega)
    have hlow := hdigit (c.toNat % 16) (by omega)
    simp [hhigh.symm, hlow.symm]
  · rename_i hne _ _ _
    exact fun h => hne (List.mem_singleton.1 h).symm

theorem newline_not_mem_writeString (s : String) : '\n' ∉ writeString s := by
  intro h
  simp only [writeString, List.cons_append, List.mem_cons, List.mem_append, List.mem_flatMap] at h
  rcases h with h | ⟨c, -, hc⟩ | h | h
  · exact absurd h (by decide)
  · exact newline_not_mem_escape c hc
  · exact absurd h (by decide)
  · cases h

theorem newline_not_mem_writeScalar {a : Scalar} (ha : ∀ x, a ≠ .float x) :
    '\n' ∉ writeScalar a := by
  cases a with
  | null => decide
  | bool b => cases b <;> decide
  | float x => exact absurd rfl (ha x)
  | string s => exact newline_not_mem_writeString s
  | int i =>
    have hdigits : '\n' ∉ Nat.toDigits 10 i.toInt.natAbs := fun h =>
      absurd (isDigit_toDigits _ _ h) (by decide)
    rw [writeScalar_int]
    split
    · intro h
      rcases List.mem_cons.1 h with h | h
      · exact absurd h (by decide)
      · exact hdigits h
    · exact hdigits

theorem newline_not_mem_compactItems {items : List Content}
    (h : ∀ c ∈ items, '\n' ∉ compact c) : '\n' ∉ compactItems items := by
  induction items with
  | nil => exact List.not_mem_nil
  | cons c items ih =>
    have hc := h c List.mem_cons_self
    cases items with
    | nil => exact hc
    | cons d items =>
      have hrest := ih fun e he => h e (List.mem_cons_of_mem _ he)
      simp [compactItems, hc, hrest]

theorem newline_not_mem_compactEntries {entries : List (String × Content)}
    (h : ∀ e ∈ entries, '\n' ∉ compact e.2) : '\n' ∉ compactEntries entries := by
  induction entries with
  | nil => exact List.not_mem_nil
  | cons e entries ih =>
    have hkey := newline_not_mem_writeString e.1
    have he := h e List.mem_cons_self
    cases entries with
    | nil => simp [compactEntries, hkey, he]
    | cons d entries =>
      have hrest := ih fun e he => h e (List.mem_cons_of_mem _ he)
      simp [compactEntries, hkey, he, hrest]

theorem newline_not_mem_compact {levels : Nat} {c : Content} (h : c.Legible levels) :
    '\n' ∉ compact c := by
  induction h with
  | scalar h => exact newline_not_mem_writeScalar h
  | slice _ ih => simp [compact, newline_not_mem_compactItems ih]
  | map _ _ ih => simp [compact, newline_not_mem_compactEntries ih]

theorem read?_compact {c : Content} (h : c.Legible maxNesting) :
    read? (String.ofList (compact c)) = some c := by
  have hread := (reads_compact h).read .nil .nil
  rw [List.nil_append, List.append_nil] at hread
  rw [read?, String.toList_ofList, hread]
  rfl

-- ---------------------------------------------------------------------------
-- Several documents
-- ---------------------------------------------------------------------------

/-- The text is made of lines, each of which is ended, and they read as these contents. -/
def OnLines (text : String) (contents : List Content) : Prop :=
  ∃ lines : List (List Char), text.toList = lines.flatMap (· ++ ['\n']) ∧
    List.Forall₂ (fun line c => '\n' ∉ line ∧
      read? (String.ofList line) = some c) lines contents

theorem OnLines.count_newline {text : String} {contents : List Content}
    (h : OnLines text contents) : text.toList.count '\n' = contents.length := by
  obtain ⟨lines, htext, hlines⟩ := h
  rw [htext]
  clear htext
  induction hlines with
  | nil => rfl
  | cons hline _ ih =>
    rw [List.flatMap_cons, List.count_append, List.count_append, List.count_eq_zero.2 hline.1, ih,
      List.length_cons, List.count_singleton_self]
    omega

theorem onLines_documents {contents : List Content} (h : ∀ c ∈ contents, c.Legible maxNesting) :
    OnLines (String.ofList (contents.flatMap (document true))) contents := by
  refine ⟨contents.map compact, ?_, ?_⟩
  · rw [String.toList_ofList, List.flatMap_map]
    rfl
  · refine List.forall₂_map_left_iff.2 (List.forall₂_same.2 fun c hc => ?_)
    exact ⟨newline_not_mem_compact (h c hc), read?_compact (h c hc)⟩

end Json

-- ---------------------------------------------------------------------------
-- Results
-- ---------------------------------------------------------------------------

namespace Format

variable {s : Store} {r : Ref}

theorem documents_of_branch {items : List Ref} (hb : s.isBranch r = true)
    (hd : s.data r = .slice items) : documents s r = items := by
  rw [documents, hd]
  exact if_pos hb

theorem documents_of_single (h : ¬ (s.isBranch r = true ∧ ∃ items, s.data r = .slice items)) :
    documents s r = [r] := by
  unfold documents
  split
  · rename_i items hd
    exact if_neg fun hb => h ⟨hb, items, hd⟩
  · rfl

theorem onLines_write (h : ∀ d ∈ documents s r, (s.content d).Legible Json.maxNesting) :
    Json.OnLines (write .json true s r) ((documents s r).map s.content) := by
  have hlegible : ∀ c ∈ (documents s r).map s.content, c.Legible Json.maxNesting :=
    fun c hc => by
    obtain ⟨d, hd, rfl⟩ := List.mem_map.1 hc
    exact h d hd
  have hlines := Json.onLines_documents hlegible
  rwa [List.flatMap_map] at hlines

/-- In the compact form each document takes one line. For a branch of some elements there are as
many lines, which read as the elements in their order; for every other value there is one, which
reads as the value. What is built for that is alike down to every node below. -/
theorem write_on_lines (hgrounded : s.Grounded r)
    (hfloat : ∀ x, Scalar.float x ∉ (s.content r).scalars)
    (hdepth : (s.content r).depth ≤ 127) :
    (∀ items, s.isBranch r = true → s.data r = .slice items →
        Json.OnLines (write .json true s r) (items.map s.content) ∧
          (write .json true s r).toList.count '\n' = items.length ∧
          ∀ d ∈ items, ∀ t : Store,
            s.Resembles (t.build (s.content d)).2 d (t.build (s.content d)).1) ∧
      (¬ (s.isBranch r = true ∧ ∃ items, s.data r = .slice items) →
        Json.OnLines (write .json true s r) [s.content r] ∧
          (write .json true s r).toList.count '\n' = 1 ∧
          ∀ t : Store, s.Resembles (t.build (s.content r)).2 r (t.build (s.content r)).1) := by
  refine ⟨fun items hb hd => ?_, fun hsingle => ?_⟩
  · have hcontent : s.content r = .slice (items.map s.content) := by
      rw [hgrounded.content_eq, hd, Data.contentWith]
    rw [hcontent, Content.scalars] at hfloat
    rw [hcontent, Content.depth] at hdepth
    have hlegible : ∀ d ∈ items, (s.content d).Legible Json.maxNesting := fun d hd => by
      have hmem := List.mem_map_of_mem (f := s.content) hd
      have hle := Content.depth_le_of_mem_items hmem
      refine s.legible_treeWithin (fun x hx => hfloat x (Content.scalars_subset_items hmem hx)) ?_
      exact hle.trans ((Nat.le_succ _).trans hdepth)
    have hlines := onLines_write fun d hdoc => hlegible d (documents_of_branch hb hd ▸ hdoc)
    rw [documents_of_branch hb hd] at hlines
    refine ⟨hlines, by rw [hlines.count_newline, List.length_map], fun d hd' t => ?_⟩
    exact Store.resembles_build (hgrounded.part (by rw [Store.Part, hd]; exact hd'))
      (hlegible d hd') t
  · have hlegible : (s.content r).Legible Json.maxNesting := s.legible_treeWithin hfloat hdepth
    have hlines : Json.OnLines (write .json true s r) ((documents s r).map s.content) :=
      onLines_write fun d hdoc => by
        rw [documents_of_single hsingle, List.mem_singleton] at hdoc
        rwa [hdoc]
    rw [documents_of_single hsingle] at hlines
    exact ⟨hlines, hlines.count_newline, Store.resembles_build hgrounded hlegible⟩

/-- The elements of a document, with line ends in a string and in a key. -/
theorem write_on_lines_elements :
    let settings : Settings := ⟨Registry.builtins FileSystem.bare, fun _ => none, 10⟩
    let start := Session.start (.slice [.string "a\nb", .map [("\n", .null)]]) []
    let s := (evaluate settings (.branch []) start.1 start.2).2.store
    s.isBranch ⟨4⟩ = true ∧ s.data ⟨4⟩ = .slice [⟨0⟩, ⟨2⟩] ∧
      Json.OnLines (write .json true s ⟨4⟩) ([⟨0⟩, ⟨2⟩].map s.content) ∧
        (write .json true s ⟨4⟩).toList.count '\n' = 2 ∧
        ∀ d ∈ [⟨0⟩, ⟨2⟩], ∀ t : Store,
          s.Resembles (t.build (s.content d)).2 d (t.build (s.content d)).1 := by
  intro settings start s
  have hknown : start.2.store.Known start.1 := by
    show 3 < 4
    decide
  have hreachable : (evaluate settings (.branch []) start.1 start.2).2.Reachable settings :=
    @Session.Reachable.step _ _ (.evaluate (.branch []) start.1) (.start settings _ _) hknown
  have hsound := hreachable.sound (Settings.keeping_builtins .soundness _ _ _)
  have hscalars : (s.content ⟨4⟩).scalars = [.string "a\nb", .null] := by decide +kernel
  have hlines := write_on_lines (hsound.store.grounded ⟨4⟩) (by rw [hscalars]; simp) (by decide)
  exact ⟨rfl, rfl, hlines.1 [⟨0⟩, ⟨2⟩] rfl rfl⟩

end Format

end DocSelect
