import DocSelect.Proofs.Shorthand.Word

/-!
# Entries of objects that are words

A bare word as an entry of an object is short for the entry that has the word as its key and the
property of that name as its value. Keywords are keys in front of a colon, and properties behind
one, but a bare keyword is no entry: the parser takes it for the expression of a key, and misses the
colon.
-/
namespace DocSelect

open DocSelect.Parser

-- ---------------------------------------------------------------------------
-- A word where an expression is expected
-- ---------------------------------------------------------------------------

def TokenKind.EndsEntry (k : TokenKind) : Prop := k = .comma ∨ k = .closeBrace

theorem TokenKind.Names.cases {k : TokenKind} (h : k.Names) :
    k = .symbol ∨ ∃ keyword, k = .keyword keyword ∧
    isPropertyWord (.keyword keyword) = true := by
  rcases h with h | h
  · exact .inl h
  · cases k <;> first | exact .inr ⟨_, rfl, h⟩ | cases h

namespace Parser

variable {nested : Nested} {c : Cursor} {fuel : Nat}

theorem exec_furtherSteps_of_ends (h : c.kind.EndsEntry) :
    (furtherSteps nested fuel).exec c = (.ok [], c) := by
  cases fuel with
  | zero => rfl
  | succ fuel =>
    unfold furtherSteps
    rw [exec_bind, exec_kind]
    rcases h with h | h <;> rw [h] <;> rfl

theorem exec_primary_of_names (hc : c.kind.Names) (hends : c.advance.kind.EndsEntry) :
    (primary nested).exec c = (.ok (.property c.current.value), c.advance) := by
  have hparen : c.advance.kind ≠ .openParen := by rcases hends with h | h <;> rw [h] <;> decide
  unfold primary
  rw [exec_bind, exec_current]
  simp only [exec_bind, exec_nextKind, ← Cursor.kind_advance]
  rcases hc with hc | hc
  · rw [Cursor.kind] at hc
    rw [hc, if_neg (by simp [isPropertyWord])]
    simp only [exec_bind, exec_advance, exec_kind, hparen, if_false, exec_pure]
  · rw [if_pos ⟨hc, hparen⟩]
    rfl

theorem exec_expression_of_names (levels : Nat) (hc : c.kind.Names)
    (hends : c.advance.kind.EndsEntry) :
    (expression (levels + 1) .object .default).exec c =
      (.ok (.property c.current.value), c.advance) := by
  have hchain : (chain (expression levels)).exec c =
      (.ok (.property c.current.value), c.advance) := by
    unfold chain
    simp only [exec_bind, exec_primary_of_names hc hends, exec_rounds,
      exec_furtherSteps_of_ends hends, exec_pure]
    rfl
  have hoperand :
      (operand (expression levels) .object).exec c =
        (.ok (.property c.current.value), c.advance) := by
    unfold operand
    rw [exec_bind, exec_kind]
    dsimp only
    split
    · rename_i hk
      rw [hk] at hc
      rcases hc with hc | hc <;> cases hc
    · rename_i hk
      rw [hk] at hc
      rcases hc with hc | hc <;> cases hc
    · exact hchain
  have hfolds (e : Expr) : (folds (expression levels) .object .default levels e).exec c.advance =
      (.ok e, c.advance) := by
    refine exec_folds_of_not_lt (fun p hp => ?_) levels e
    rcases hends with h | h <;> rw [h] at hp <;> cases hp
  have hend : (expectEnd .object).exec c.advance = (.ok (), c.advance) := by
    unfold expectEnd
    rw [exec_bind, exec_kind]
    rcases hends with h | h <;> rw [h] <;> rfl
  unfold expression
  simp only [exec_bind, hoperand, hfolds, hend, exec_pure]

theorem exec_objectEntry_bare (levels : Nat) (hc : c.kind = .symbol)
    (hends : c.advance.kind.EndsEntry) :
    (objectEntry (expression (levels + 1))).exec c =
      (.ok (.pair (.string c.current.value) (.property c.current.value)), c.advance) := by
  have halone : (c.nextKind == .comma || c.nextKind == .closeBrace) = true := by
    rw [← Cursor.kind_advance]
    rcases hends with h | h <;> rw [h] <;> rfl
  rw [Cursor.kind] at hc
  unfold objectEntry
  simp only [exec_bind, exec_current, exec_nextKind, hc, halone, reduceCtorEq, false_and,
    true_and, if_false, if_true, exec_advance, exec_pure]

theorem exec_objectEntry_keyed (levels : Nat) (hc : c.kind.Names) (hcolon : c.advance.kind = .colon)
    (hvalue : c.advance.advance.kind.Names) (hends : c.advance.advance.advance.kind.EndsEntry) :
    (objectEntry (expression (levels + 1))).exec c =
      (.ok (.pair (.string c.current.value) (.property c.advance.advance.current.value)),
        c.advance.advance.advance) := by
  have hnext : c.nextKind = .colon := by rw [← Cursor.kind_advance, hcolon]
  have hkey : isPlainKey c.current.kind = true := by
    rcases hc.cases with h | ⟨keyword, h, -⟩ <;> rw [Cursor.kind] at h <;> rw [h] <;> rfl
  unfold objectEntry
  rw [exec_bind, exec_current]
  dsimp only
  rw [exec_bind, exec_nextKind]
  dsimp only
  rw [hnext, if_neg (fun h => absurd h.2 (by decide)), if_neg (fun h => absurd h.2 (by decide)),
    if_pos ⟨hkey, rfl⟩]
  simp only [exec_bind, exec_advance, exec_expression_of_names levels hvalue hends, exec_pure]

/-- A bare keyword is taken for the expression of a key, which a colon should follow. -/
theorem exec_objectEntry_keyword (levels : Nat) (hc : isPropertyWord c.kind = true)
    (hends : c.advance.kind.EndsEntry) :
    (objectEntry (expression (levels + 1))).exec c =
      (.error (.unexpected c.advance.current), c.advance) := by
  have hcolon : c.advance.kind ≠ .colon := by rcases hends with h | h <;> rw [h] <;> decide
  have hword : c.current.kind ≠ .ellipsis ∧ c.current.kind ≠ .symbol := by
    constructor <;> intro h <;> rw [Cursor.kind, h] at hc <;> cases hc
  unfold objectEntry
  rw [exec_bind, exec_current]
  dsimp only
  rw [exec_bind, exec_nextKind]
  dsimp only
  rw [if_neg (fun h => hword.1 h.1), if_neg (fun h => hword.2 h.1),
    if_neg (fun h => hcolon (Cursor.kind_advance c ▸ h.2))]
  rw [exec_bind, exec_expression_of_names levels (.inr hc) hends]
  have hkey : ¬ (Expr.property c.current.value).isSpread = true := Bool.false_ne_true
  have hlast : ¬ (Expr.property c.current.value).last.isSpread = true := Bool.false_ne_true
  dsimp only
  rw [if_neg hkey, if_neg hlast, exec_bind, exec_expect_of_ne hcolon]

end Parser

-- ---------------------------------------------------------------------------
-- The loop over entries
-- ---------------------------------------------------------------------------

theorem Cursor.rest_length_advance_le (c : Cursor) : c.advance.rest.length ≤ c.rest.length := by
  unfold advance
  split
  · exact Nat.le_refl _
  · rename_i next rest hrest
    rw [hrest]
    exact Nat.le_succ _

/-- From a place on the entries of an object are taken up to the closing brace, and the place behind
it is reached. -/
def Cursor.Entries (c : Cursor) (expected : Except ParseError (List ObjectEntry)) (d : Cursor) :
    Prop :=
  ∀ levels fuel, c.rest.length < fuel → ∃ c',
    (objectLoop (expression (levels + 1)) fuel).exec c = (expected, c') ∧
      ∀ entries, expected = .ok entries → c' = d

/-- From a place on an entry is taken that ends in front of a comma or a brace, or none is found
there. -/
structure Cursor.Entry (c : Cursor) (outcome : Except ParseError ObjectEntry) (d : Cursor) :
    Prop where
  filled : c.kind ≠ .closeBrace
  length_lt : d.rest.length < c.rest.length
  ends : d.kind.EndsEntry
  exec (levels : Nat) : (objectEntry (expression (levels + 1))).exec c = (outcome, d)

namespace Cursor.Entries

variable {c c₁ d : Cursor} {e : ObjectEntry} {err : ParseError}
  {expected : Except ParseError (List ObjectEntry)}

theorem closing (h : c.kind = .closeBrace) : c.Entries (.ok []) c.advance := by
  intro levels fuel hfuel
  obtain ⟨fuel, rfl⟩ := Nat.exists_eq_add_one.2 (Nat.zero_lt_of_lt hfuel)
  refine ⟨c.advance, ?_, fun _ _ => rfl⟩
  unfold objectLoop
  rw [exec_bind, exec_kind]
  dsimp only
  rw [if_pos h]
  rfl

theorem refused (h : c.Entry (.error err) c₁) : c.Entries (.error err) d := by
  intro levels fuel hfuel
  obtain ⟨fuel, rfl⟩ := Nat.exists_eq_add_one.2 (Nat.zero_lt_of_lt hfuel)
  refine ⟨c₁, ?_, nofun⟩
  unfold objectLoop
  rw [exec_bind, exec_kind]
  dsimp only
  rw [if_neg h.filled, exec_bind, h.exec levels]

theorem entry (h : c.Entry (.ok e) c₁)
    (hmore : (if c₁.kind = .comma then c₁.advance else c₁).Entries expected d) :
    c.Entries (expected.map (e :: ·)) d := by
  intro levels fuel hfuel
  obtain ⟨fuel, rfl⟩ := Nat.exists_eq_add_one.2 (Nat.zero_lt_of_lt hfuel)
  have hlt := h.length_lt
  have hnext : (if c₁.kind = .comma then c₁.advance else c₁).rest.length < fuel := by
    have hle := c₁.rest_length_advance_le
    split <;> omega
  obtain ⟨c', hloop, hd⟩ := hmore levels fuel hnext
  have hrest :
      (do return e :: (← objectLoop (expression (levels + 1)) fuel) :
        Parser (List ObjectEntry)).exec
      (if c₁.kind = .comma then c₁.advance else c₁) = (expected.map (e :: ·), c') := by
    rw [exec_bind, hloop]
    cases expected <;> rfl
  refine ⟨c', ?_, fun entries hentries => ?_⟩
  · unfold objectLoop
    rw [exec_bind, exec_kind]
    dsimp only
    rw [if_neg h.filled, exec_bind, h.exec levels]
    dsimp only
    rw [exec_bind, exec_kind]
    dsimp only
    by_cases hcomma : c₁.kind = .comma
    · rw [if_pos hcomma] at hrest ⊢
      rw [exec_bind, exec_advance]
      exact hrest
    · have hbrace : c₁.kind = .closeBrace := h.ends.resolve_left hcomma
      rw [if_neg hcomma] at hrest ⊢
      rw [if_neg (not_not_intro hbrace)]
      exact hrest
  · cases expected with
    | error => cases hentries
    | ok es => exact hd es rfl

end Cursor.Entries

-- ---------------------------------------------------------------------------
-- Texts of entries
-- ---------------------------------------------------------------------------

section

variable {word text gap : String} {p : Nat} {rest : List Char} {ts : List Token} {c d : Cursor}
  {e : ObjectEntry}

theorem Lexer.Reads.colon (h : Reads (p + 1) rest ts) :
    Reads p (':' :: rest) (⟨.colon, ":", p, 1⟩ :: ts) := by
  have hnil : ∀ c ∈ ([] : List Char), isBlank c = true := fun _ hc => absurd hc List.not_mem_nil
  exact lexeme (p := p) hnil (fun _ hc => by cases hc; decide) rfl (by decide) Nat.one_pos h

theorem Lexer.Reads.comma (hgap : isBlankText gap = true)
    (h : Reads (p + ("," ++ gap).length) rest ts) :
    Reads p (("," ++ gap).toList ++ rest) (⟨.comma, ",", p, 1⟩ :: ts) := by
  have hblank : ∀ c ∈ gap.toList, isBlank c = true := List.all_eq_true.1 hgap
  rw [String.length_append, ← Nat.add_assoc] at h
  rw [String.toList_append, List.append_assoc]
  have hbehind : Reads (p + 1) (gap.toList ++ rest) ts := blank hblank h
  exact mark (k := .comma) (c := ',') (by decide) hbehind

/-- A text that is taken for an entry of an object in front of a comma or a brace, or refused
there. -/
def EntryText (text : String) (outcome : Token → Except ParseError ObjectEntry) : Prop :=
  ∀ {p : Nat} {rest : List Char} {d : Cursor}, Parted rest →
    Lexer.Reads (p + text.length) rest d.toList → d.kind.EndsEntry →
      ∃ c : Cursor, Lexer.Reads p (text.toList ++ rest) c.toList ∧ c.Entry (outcome d.current) d

def ObjectEntry.ofWord (word : String) : ObjectEntry := .pair (.string word) (.property word)

/-- A key, a colon and the property of the same name. -/
def keyed (gap word : String) : String := word ++ (":" ++ gap) ++ word

namespace PropertyWord

theorem filled (h : PropertyWord word) : wordKind word ≠ .closeBrace := by
  intro hk
  rcases h.names with hnames | hnames <;> rw [hk] at hnames <;> cases hnames

theorem reads (h : PropertyWord word) (hrest : Parted rest)
    (hts : Lexer.Reads (p + word.length) rest ts) :
    Lexer.Reads p (word.toList ++ rest) (⟨wordKind word, word, p, word.length⟩ :: ts) :=
  Lexer.Reads.text h.tokens hrest hts

theorem bare (h : PropertyWord word) (hsymbol : wordKind word = .symbol) :
    EntryText word fun _ => .ok (.ofWord word) := by
  intro p rest d hrest hd hends
  refine ⟨⟨⟨wordKind word, word, p, word.length⟩, d.toList⟩, h.reads hrest hd, h.filled,
    Nat.lt_succ_self _, hends, ?_⟩
  exact fun levels => exec_objectEntry_bare levels hsymbol hends

theorem keyword (h : PropertyWord word) (hword : isPropertyWord (wordKind word) = true) :
    EntryText word fun t => .error (.unexpected t) := by
  intro p rest d hrest hd hends
  refine ⟨⟨⟨wordKind word, word, p, word.length⟩, d.toList⟩, h.reads hrest hd, h.filled,
    Nat.lt_succ_self _, hends, ?_⟩
  exact fun levels => exec_objectEntry_keyword levels hword hends

theorem keyed (h : PropertyWord word) (hgap : isBlankText gap = true) :
    EntryText (keyed gap word) fun _ => .ok (.ofWord word) := by
  intro p rest d hrest hd hends
  have hblank : ∀ c ∈ gap.toList, isBlank c = true := List.all_eq_true.1 hgap
  rw [DocSelect.keyed, String.length_append, String.length_append, String.length_append,
    ← Nat.add_assoc, ← Nat.add_assoc, ← Nat.add_assoc] at hd
  have hvalue := Lexer.Reads.colon (.blank hblank (h.reads hrest hd))
  have hkey := h.reads (.cons (c := ':') rfl _) hvalue
  let value : Cursor :=
    ⟨⟨wordKind word, word, p + word.length + 1 + gap.toList.length, word.length⟩, d.toList⟩
  let colon : Cursor := ⟨⟨.colon, ":", p + word.length, 1⟩, value.toList⟩
  refine ⟨⟨⟨wordKind word, word, p, word.length⟩, colon.toList⟩, ?_, h.filled, ?_, hends,
    fun levels => ?_⟩
  · rw [DocSelect.keyed, String.toList_append, String.toList_append, String.toList_append]
    simp only [List.append_assoc]
    exact hkey
  · simp only [colon, value, Cursor.toList, List.length_cons]
    omega
  · exact exec_objectEntry_keyed levels h.names rfl h.names hends

end PropertyWord

end

end DocSelect
