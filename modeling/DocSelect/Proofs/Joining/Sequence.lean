import DocSelect.Proofs.Joining.Statement

/-!
# Statements one after the other

Between brackets statements follow one another with a separator between them. The parser gives their
trees, with or without a separator behind the last one; it refuses a separator that no statement
stands before.
-/
namespace DocSelect

open DocSelect.Parser

def joined (separator : String) (trailing : Bool) (texts : List String) : String :=
  separator.intercalate texts ++ if trailing then separator else ""

def followed (separator : String) : List String → String
  | [] => ""
  | text :: texts => text ++ separator ++ followed separator texts

theorem joined_singleton (separator : String) (trailing : Bool) (text : String) :
    joined separator trailing [text] = text ++ if trailing then separator else "" := by
  rw [joined, String.intercalate_singleton]

theorem joined_cons (separator : String) (trailing : Bool) (text : String) {texts : List String}
    (h : texts ≠ []) :
    joined separator trailing (text :: texts) = text ++ separator ++
      joined separator trailing texts := by
  rw [joined, joined, String.intercalate_cons_of_ne_nil h, String.append_assoc]

/-- Joined texts are some of them with a separator behind each, and the others joined. -/
theorem joined_append (separator : String) (trailing : Bool) (before : List String)
    {texts : List String} (h : texts ≠ []) :
    joined separator trailing (before ++ texts) = followed separator before ++
      joined separator trailing texts := by
  induction before with
  | nil => rw [List.nil_append, followed, String.empty_append]
  | cons first before ih =>
    rw [List.cons_append, joined_cons separator
      trailing first (List.append_ne_nil_of_right_ne_nil before h), ih,
      followed, ← String.append_assoc]

/-- Joined texts are the texts before the last one, with a separator behind each, and the last
one. -/
theorem joined_concat (separator : String) (trailing : Bool) (texts : List String) (text : String) :
    joined separator trailing (texts ++ [text]) =
      followed separator texts ++ (text ++ if trailing then separator else "") := by
  rw [joined_append separator trailing texts (List.cons_ne_nil _ _), joined_singleton]

/-- What encloses expressions: the scope that they are in, the token that closes it, and the one
between them. -/
structure Enclosure where
  scope : Scope
  close : TokenKind
  separator : TokenKind
  close_mem : close ∈ scope.terminators
  separator_mem : separator ∈ scope.terminators
  separator_ne : separator ≠ close
  mark : separator = .comma ∨ separator = .semicolon

namespace Enclosure

def program : Enclosure := ⟨.root, .eof, .semicolon, by decide, by decide, by decide, by decide⟩

def arguments : Enclosure :=
  ⟨.arguments, .closeParen, .comma, by decide, by decide, by decide, by decide⟩

def array : Enclosure :=
  ⟨.array, .closeBracket, .comma, by decide, by decide, by decide, by decide⟩

def group : Enclosure :=
  ⟨.group, .closeParen, .semicolon, by decide, by decide, by decide, by decide⟩

def body : Enclosure :=
  ⟨.body, .closeBrace, .semicolon, by decide, by decide, by decide, by decide⟩

theorem ends_close (w : Enclosure) : w.close.Ends := ⟨w.scope, w.close_mem⟩

theorem ends_separator (w : Enclosure) : w.separator.Ends := ⟨w.scope, w.separator_mem⟩

theorem exists_mark (w : Enclosure) : ∃ mark, (w.separator, mark) ∈ Scan.marks ∧
    w.separator.text.toList = [mark] ∧ isParting mark = true := by
  rcases w.mark with h | h <;> rw [h]
  · exact ⟨',', by decide, by decide, by decide⟩
  · exact ⟨';', by decide, by decide, by decide⟩

theorem length_separator (w : Enclosure) : w.separator.text.length = 1 := by
  obtain ⟨mark, -, htext, -⟩ := w.exists_mark
  rw [← String.length_toList, htext]
  rfl

end Enclosure

-- ---------------------------------------------------------------------------
-- The loop over expressions
-- ---------------------------------------------------------------------------

/-- From a place on expressions are taken up to the closing token, and the place behind it is
reached, however deep they are nested. -/
def Enclosure.Takes (w : Enclosure) (filled : Bool) (c : Cursor)
    (expected : Except ParseError (List Expr)) (d : Cursor) : Prop :=
  ∀ levels fuel, c.rest.length < fuel →
    (sequenceLoop (expression levels) w.scope w.close w.separator fuel filled).Gives c
      expected (· = d)

namespace Enclosure.Takes

variable {w : Enclosure} {filled : Bool} {c c₁ d : Cursor} {e : Expr}
  {expected : Except ParseError (List Expr)}

theorem closing (hk : c.kind = w.close) : w.Takes filled c (.ok []) c.advance := by
  intro levels fuel hfuel
  obtain ⟨fuel, rfl⟩ := Nat.exists_eq_add_one.2 (Nat.zero_lt_of_lt hfuel)
  unfold sequenceLoop
  refine .bind_exec (exec_kind c) ?_
  rw [if_pos hk]
  exact .bind_exec (exec_advance c) (.pure rfl)

theorem misplaced (hk : c.kind = w.separator) :
    w.Takes false c (.error (.unexpected c.current)) d := by
  intro levels fuel hfuel
  obtain ⟨fuel, rfl⟩ := Nat.exists_eq_add_one.2 (Nat.zero_lt_of_lt hfuel)
  unfold sequenceLoop
  refine .bind_exec (exec_kind c) ?_
  rw [if_neg (hk ▸ w.separator_ne), if_pos hk, if_neg Bool.false_ne_true]
  exact .unexpected

theorem separated (hk : c.kind = w.separator) (hlt : c.advance.rest.length < c.rest.length)
    (hmore : w.Takes false c.advance expected d) : w.Takes true c expected d := by
  intro levels fuel hfuel
  obtain ⟨fuel, rfl⟩ := Nat.exists_eq_add_one.2 (Nat.zero_lt_of_lt hfuel)
  unfold sequenceLoop
  refine .bind_exec (exec_kind c) ?_
  rw [if_neg (hk ▸ w.separator_ne), if_pos hk, if_pos rfl]
  exact .bind_exec (exec_advance c) (hmore levels fuel (by omega))

theorem item (hlead : c.Leads e c₁) (hends : c₁.kind ∈ w.scope.terminators)
    (hmore : w.Takes true c₁ expected d) : w.Takes filled c (expected.map (e :: ·)) d := by
  intro levels fuel hfuel
  obtain ⟨fuel, rfl⟩ := Nat.exists_eq_add_one.2 (Nat.zero_lt_of_lt hfuel)
  have hclose : c.kind ≠ w.close := fun hk => hlead.starts (hk ▸ w.ends_close)
  have hseparator : c.kind ≠ w.separator := fun hk => hlead.starts (hk ▸ w.ends_separator)
  have heof : c.kind ≠ .eof := fun hk => hlead.starts ⟨.root, by rw [hk]; decide⟩
  have hlt := hlead.length_lt
  unfold sequenceLoop
  refine .bind_exec (exec_kind c) ?_
  rw [if_neg hclose, if_neg hseparator, if_neg heof]
  refine (hlead.gives levels hends).bind_ok ?_
  rintro _ rfl
  exact (hmore levels fuel (by omega)).map

end Enclosure.Takes

-- ---------------------------------------------------------------------------
-- Texts of several statements
-- ---------------------------------------------------------------------------

structure Enclosure.Reads (w : Enclosure) (p : Nat) (cs : List Char) (c : Cursor)
    (expected : Except ParseError (List Expr)) (d : Cursor) : Prop where
  reads : Lexer.Reads p cs c.toList
  takes : w.Takes false c expected d

namespace Enclosure.Reads

variable {w : Enclosure} {items : List (String × Expr)} {p : Nat} {rest : List Char} {c d : Cursor}
  {text : String} {tree : Expr} {expected : Except ParseError (List Expr)}

theorem statement (hs : Statement text tree)
    (hc : w.Reads (p + (text ++ w.separator.text).length) rest c expected d) :
    ∃ c', w.Reads p ((text ++ w.separator.text).toList ++ rest) c'
      (expected.map (tree :: ·)) d ∧ ¬ c'.kind.Ends := by
  obtain ⟨mark, hmark, htext, hparting⟩ := w.exists_mark
  obtain ⟨hreads, htakes⟩ := hc
  rw [String.length_append, w.length_separator, ← Nat.add_assoc] at hreads
  obtain ⟨c', hreads', hlead⟩ :=
    hs.reads (d := ⟨_, c.toList⟩) (.cons hparting rest) (.mark hmark hreads)
  refine ⟨c', ⟨?_, .item hlead w.separator_mem (.separated rfl (Nat.lt_succ_self _) htakes)⟩,
    hlead.starts⟩
  rwa [String.toList_append, htext, List.append_assoc, List.singleton_append]

theorem statements (hitems : ∀ x ∈ items, Statement x.1 x.2) (hstart : c.kind ≠ w.close)
    (hc : w.Reads (p + (followed w.separator.text (items.map Prod.fst)).length) rest c expected d) :
    ∃ c', w.Reads p ((followed w.separator.text (items.map Prod.fst)).toList ++ rest) c'
      (expected.map (items.map Prod.snd ++ ·)) d ∧ c'.kind ≠ w.close := by
  induction items generalizing p with
  | nil =>
    refine ⟨c, ?_, hstart⟩
    cases expected <;> simpa [followed, Except.map] using hc
  | cons x items ih =>
    obtain ⟨hx, hitems⟩ := List.forall_mem_cons.1 hitems
    rw [List.map_cons, followed, String.length_append, ← Nat.add_assoc] at hc
    obtain ⟨c₁, hc₁, -⟩ := ih hitems hc
    obtain ⟨c', hc', hstarts⟩ := statement hx hc₁
    refine ⟨c', ?_, fun hk => hstarts (hk ▸ w.ends_close)⟩
    rw [List.map_cons, followed, String.toList_append, List.append_assoc]
    cases expected <;> exact hc'

theorem last (trailing : Bool) (hs : Statement text tree) (hrest : Parted rest)
    (hk : d.kind = w.close)
    (hd : Lexer.Reads (p + (text ++ if trailing then w.separator.text else "").length)
      rest d.toList) :
    ∃ c, w.Reads p ((text ++ if trailing then w.separator.text else "").toList ++ rest) c
      (.ok [tree]) d.advance ∧ c.kind ≠ w.close := by
  cases trailing with
  | true =>
    obtain ⟨c, hc, hstarts⟩ := statement hs ⟨hd, .closing hk⟩
    exact ⟨c, hc, fun hk => hstarts (hk ▸ w.ends_close)⟩
  | false =>
    rw [if_neg Bool.false_ne_true, String.append_empty] at hd ⊢
    obtain ⟨c, hreads, hlead⟩ := hs.reads hrest hd
    refine ⟨c, ⟨hreads, .item hlead (hk ▸ w.close_mem) (.closing hk)⟩, fun hk => ?_⟩
    exact hlead.starts (hk ▸ w.ends_close)

theorem joined (trailing : Bool) (hne : items ≠ []) (hitems : ∀ x ∈ items, Statement x.1 x.2)
    (hrest : Parted rest) (hk : d.kind = w.close)
    (hd : Lexer.Reads (p + (joined w.separator.text trailing (items.map Prod.fst)).length)
      rest d.toList) :
    ∃ c,
      w.Reads p ((DocSelect.joined w.separator.text trailing (items.map Prod.fst)).toList ++ rest) c
      (.ok (items.map Prod.snd)) d.advance ∧ c.kind ≠ w.close := by
  rw [← List.dropLast_concat_getLast hne] at hitems hd ⊢
  rw [List.map_append, List.map_singleton, joined_concat] at hd ⊢
  rw [String.length_append, ← Nat.add_assoc] at hd
  obtain ⟨c₁, hc₁, hstart⟩ :=
    last trailing (hitems _ (List.mem_append_right _ List.mem_cons_self)) hrest hk hd
  obtain ⟨c, hc, hstart⟩ :=
    statements (fun x hx => hitems x (List.mem_append_left _ hx)) hstart hc₁
  refine ⟨c, ?_, hstart⟩
  rw [List.map_append, List.map_singleton, String.toList_append, List.append_assoc]
  exact hc

theorem misplaced (hitems : ∀ x ∈ items, Statement x.1 x.2) {c₁ : Cursor}
    (h : Lexer.Reads (p + (followed w.separator.text (items.map Prod.fst)).length + 1)
      rest c₁.toList) :
    ∃ c, w.Reads p ((followed w.separator.text (items.map Prod.fst)).toList ++
      (w.separator.text.toList ++ rest)) c (.error (.unexpected ⟨w.separator, w.separator.text,
        p + (followed w.separator.text (items.map Prod.fst)).length, 1⟩)) d ∧
    c.kind ≠ w.close := by
  obtain ⟨mark, hmark, htext, -⟩ := w.exists_mark
  have hseparator := Lexer.Reads.mark hmark h
  rw [htext]
  exact statements (c := ⟨⟨w.separator, w.separator.text, _, 1⟩, c₁.toList⟩)
    hitems w.separator_ne ⟨hseparator, .misplaced rfl⟩

end Enclosure.Reads

end DocSelect
