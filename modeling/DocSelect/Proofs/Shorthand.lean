import DocSelect.Proofs.Joining
import DocSelect.Proofs.Shorthand.Entry

/-!
# Objects of bare words

An object literal of bare words is read as the one that has each of them as a key and the property
of that name as its value, with or without a comma behind the last one. Words that are keywords are
properties as well, and they may be keys, but the bare literal is refused at the token behind the
first of them.
-/
namespace DocSelect

open DocSelect.Parser

/-- An object literal of these entries, with white space behind its commas and perhaps a comma
behind the last entry. -/
def objectText (gap : String) (trailing : Bool) (entries : List String) : String :=
  "\x7b" ++ joined ("," ++ gap) trailing entries ++ "\x7d"

theorem parted_comma (gap : String) (rest : List Char) : Parted (("," ++ gap).toList ++ rest) := by
  rw [String.toList_append, List.append_assoc]
  exact .cons (c := ',') rfl _

-- ---------------------------------------------------------------------------
-- Entries one after the other
-- ---------------------------------------------------------------------------

structure EntriesRead (p : Nat) (cs : List Char) (c : Cursor)
    (expected : Except ParseError (List ObjectEntry)) (d : Cursor) : Prop where
  reads : Lexer.Reads p cs c.toList
  entries : c.Entries expected d

namespace EntriesRead

variable {gap text : String} {p : Nat} {rest : List Char} {c d : Cursor} {e : ObjectEntry}
  {expected : Except ParseError (List ObjectEntry)} {words : List String} {form : String → String}

theorem entry (hgap : isBlankText gap = true) (ht : EntryText text fun _ => .ok e)
    (h : EntriesRead (p + (text ++ ("," ++ gap)).length) rest c expected d) :
    ∃ c', EntriesRead p ((text ++ ("," ++ gap)).toList ++ rest) c'
      (expected.map (e :: ·)) d := by
  have hreads := h.reads
  rw [String.length_append, ← Nat.add_assoc] at hreads
  have hcomma := Lexer.Reads.comma hgap hreads
  obtain ⟨c', hc', hentry⟩ :=
    ht (d := ⟨⟨.comma, ",", _, 1⟩, c.toList⟩) (parted_comma gap rest) hcomma (.inl rfl)
  refine ⟨c', ?_, .entry hentry h.entries⟩
  rw [String.toList_append, List.append_assoc]
  exact hc'

theorem followed (hgap : isBlankText gap = true)
    (hform : ∀ w ∈ words, EntryText (form w) fun _ => .ok (.ofWord w))
    (h : EntriesRead (p + (followed ("," ++ gap) (words.map form)).length) rest c expected d) :
    ∃ c', EntriesRead p ((DocSelect.followed ("," ++ gap) (words.map form)).toList ++ rest) c'
      (expected.map (words.map .ofWord ++ ·)) d := by
  induction words generalizing p with
  | nil =>
    refine ⟨c, ?_⟩
    cases expected <;> simpa [DocSelect.followed, Except.map] using h
  | cons w words ih =>
    obtain ⟨hw, hform⟩ := List.forall_mem_cons.1 hform
    rw [List.map_cons, DocSelect.followed, String.length_append, ← Nat.add_assoc] at h
    obtain ⟨c₁, hc₁⟩ := ih hform h
    obtain ⟨c', hc'⟩ := entry hgap hw hc₁
    refine ⟨c', ?_⟩
    rw [List.map_cons, DocSelect.followed, String.toList_append, List.append_assoc]
    cases expected <;> exact hc'

theorem last (hgap : isBlankText gap = true) (trailing : Bool) (ht : EntryText text fun _ => .ok e)
    (hrest : Parted rest) (hk : d.kind = .closeBrace)
    (hd : Lexer.Reads (p + (text ++ if trailing then "," ++ gap else "").length) rest d.toList) :
    ∃ c, EntriesRead p ((text ++ if trailing then "," ++ gap else "").toList ++ rest) c (.ok [e])
      d.advance := by
  cases trailing with
  | true => exact entry hgap ht ⟨hd, .closing hk⟩
  | false =>
    rw [if_neg Bool.false_ne_true, String.append_empty] at hd ⊢
    obtain ⟨c, hreads, hentry⟩ := ht hrest hd (.inr hk)
    have hclosing : (if d.kind = .comma then d.advance else d).Entries (.ok []) d.advance := by
      rw [if_neg (by rw [hk]; decide)]
      exact .closing hk
    exact ⟨c, hreads, .entry hentry hclosing⟩

theorem joined (hgap : isBlankText gap = true) (trailing : Bool) (hne : words ≠ [])
    (hform : ∀ w ∈ words, EntryText (form w) fun _ => .ok (.ofWord w)) (hrest : Parted rest)
    (hk : d.kind = .closeBrace)
    (hd : Lexer.Reads (p + (joined ("," ++ gap) trailing (words.map form)).length) rest d.toList) :
    ∃ c,
      EntriesRead p ((DocSelect.joined ("," ++ gap) trailing (words.map form)).toList ++ rest) c
      (.ok (words.map .ofWord)) d.advance := by
  rw [← List.dropLast_concat_getLast hne] at hform hd ⊢
  rw [List.map_append, List.map_singleton, joined_concat] at hd ⊢
  rw [String.length_append, ← Nat.add_assoc] at hd
  obtain ⟨c₁, hc₁⟩ :=
    last hgap trailing (hform _ (List.mem_append_right _ List.mem_cons_self)) hrest hk hd
  obtain ⟨c, hc⟩ := followed hgap (fun w hw => hform w (List.mem_append_left _ hw)) hc₁
  refine ⟨c, ?_⟩
  rw [List.map_append, List.map_singleton, String.toList_append, List.append_assoc]
  exact hc

end EntriesRead

-- ---------------------------------------------------------------------------
-- From the entries to the selector
-- ---------------------------------------------------------------------------

namespace Parser

variable {c d : Cursor} {outcome : Except ParseError Expr}

/-- A primary expression up to the end of the input is the whole selector, and so is one that is
refused. -/
theorem exec_selector_of_primary (hstart : c.kind ∉ [TokenKind.eof, .semicolon, .not, .minus])
    (hrest : 0 < c.rest.length) (h : (primary (expression 127)).exec c = (outcome, d))
    (hd : ∀ e, outcome = .ok e → e.steps = [e] ∧ d.kind = .eof) :
    (selector.exec c).1 = outcome := by
  simp only [List.mem_cons, List.not_mem_nil, or_false, not_or] at hstart
  obtain ⟨heof, hsemicolon, hnot, hminus⟩ := hstart
  obtain ⟨n, hn⟩ := Nat.exists_eq_add_one.2 hrest
  have hchain : (chain (expression 127)).exec c = (outcome, d) := by
    unfold chain
    rw [exec_bind, h]
    cases outcome with
    | error err => rfl
    | ok e =>
      obtain ⟨hsteps, hk⟩ := hd e rfl
      simp only [exec_bind, exec_rounds, exec_furtherSteps (.inl hk), exec_pure,
        Expr.chained_single hsteps]
  have hoperand : (operand (expression 127) .root).exec c = (outcome, d) := by
    unfold operand
    rw [exec_bind, exec_kind]
    dsimp only
    split
    · contradiction
    · contradiction
    · exact hchain
  have hwhole : (expression maxDepth .root .default).exec c = (outcome, d) := by
    show (expression (127 + 1) .root .default).exec c = _
    unfold expression
    rw [exec_bind, hoperand]
    cases outcome with
    | error err => rfl
    | ok e =>
      have hk := (hd e rfl).2
      have hfolds : (folds (expression 127) .root .default 127 e).exec d = (.ok e, d) :=
        exec_folds_of_not_lt (fun p hp => by rw [hk] at hp; cases hp) 127 e
      simp only [exec_bind, hfolds, exec_expectEnd (.inl hk), exec_pure]
  unfold selector sequence sequenceLoop
  simp only [exec_bind, exec_rounds, exec_kind, heof, hsemicolon, if_false, hwhole]
  cases outcome with
  | error err => rfl
  | ok e =>
    obtain ⟨hsteps, hk⟩ := hd e rfl
    rw [hn]
    unfold sequenceLoop
    simp only [exec_bind, exec_kind, hk, if_true, exec_advance, exec_pure,
      Expr.chained_single hsteps]

end Parser

theorem Parser.exec_object {c d : Cursor} {expected : Except ParseError (List ObjectEntry)}
    (levels : Nat) (h : c.advance.Entries expected d) (hk : c.kind = .openBrace) :
    ∃ c', (object (expression (levels + 1))).exec c = (expected.map .object, c') ∧
      ∀ entries, expected = .ok entries → c' = d := by
  obtain ⟨c', hloop, hd⟩ := h levels (c.advance.rest.length + 1) (Nat.lt_succ_self _)
  refine ⟨c', ?_, hd⟩
  unfold object
  simp only [exec_bind, exec_expect hk, exec_rounds, hloop]
  cases expected <;> rfl

theorem parse_objectText {gap : String} {trailing : Bool} {texts : List String} {c d : Cursor}
    (expected : Except ParseError (List ObjectEntry))
    (h : EntriesRead 1 ((joined ("," ++ gap) trailing texts).toList ++ ['\x7d']) c expected d)
    (hd : d.kind = .eof) :
    parse (objectText gap trailing texts) = expected.map .object := by
  have hreads := Lexer.Reads.mark (p := 0) (k := .openBrace) (c := '\x7b') (by decide) h.reads
  let start : Cursor := ⟨⟨.openBrace, "\x7b", 0, 1⟩, c.toList⟩
  have hparse : parse (objectText gap trailing texts) = (selector.exec start).1 := by
    refine parse_eq_of_reads ?_
    rw [objectText, String.toList_append, String.toList_append, List.append_assoc]
    exact hreads
  obtain ⟨c', hobject, hc'⟩ := exec_object (c := start) 126 h.entries rfl
  have hprimary : (primary (expression 127)).exec start = (expected.map .object, c') := by
    unfold primary
    simp only [exec_bind, exec_current, exec_nextKind, start, isPropertyWord,
      Bool.false_eq_true, false_and, if_false]
    exact hobject
  rw [hparse]
  refine exec_selector_of_primary (by simp [start, Cursor.kind])
    (Nat.succ_pos _) hprimary fun e he => ?_
  cases expected with
  | error => cases he
  | ok entries =>
    cases he
    exact ⟨rfl, hc' entries rfl ▸ hd⟩

-- ---------------------------------------------------------------------------
-- Words
-- ---------------------------------------------------------------------------

section

variable {gap word : String} {words before after : List String} {trailing : Bool}

theorem parse_entries (hgap : isBlankText gap = true) (trailing : Bool) (hne : words ≠ [])
    (form : String → String)
    (hform : ∀ w ∈ words, EntryText (form w) fun _ => .ok (.ofWord w)) :
    parse (objectText gap trailing (words.map form)) = .ok (.object (words.map .ofWord)) := by
  have hbrace (p : Nat) :
      Lexer.Reads p ['\x7d'] [⟨.closeBrace, "\x7d", p, 1⟩, .atEnd (p + 1)] :=
    .mark (k := .closeBrace) (by decide) (.nil _)
  obtain ⟨c, hc⟩ :=
    EntriesRead.joined (p := 1) (d := ⟨_, [_]⟩) hgap trailing hne hform
      (.cons rfl []) rfl (hbrace _)
  exact parse_objectText _ hc rfl

-- ---------------------------------------------------------------------------
-- Words behind a refused one
-- ---------------------------------------------------------------------------

def Readable (cs : List Char) : Prop := ∀ p, ∃ ts, Lexer.Reads p cs ts

namespace Readable

variable {rest : List Char}

theorem brace : Readable ['\x7d'] := fun _ => ⟨_, .mark (k := .closeBrace) (by decide) (.nil _)⟩

theorem append_comma (hgap : isBlankText gap = true) (h : Readable rest) :
    Readable (("," ++ gap).toList ++ rest) := fun _ =>
  let ⟨_, hts⟩ := h _
  ⟨_, .comma hgap hts⟩

theorem append_word (hword : PropertyWord word) (hrest : Parted rest) (h : Readable rest) :
    Readable (word.toList ++ rest) := fun _ =>
  let ⟨_, hts⟩ := h _
  ⟨_, hword.reads hrest hts⟩

theorem joined (hgap : isBlankText gap = true) (trailing : Bool) (hne : words ≠ [])
    (hwords : ∀ word ∈ words, PropertyWord word) (hrest : Parted rest) (h : Readable rest) :
    Readable ((joined ("," ++ gap) trailing words).toList ++ rest) := by
  induction words with
  | nil => exact absurd rfl hne
  | cons first words ih =>
    obtain ⟨hfirst, hwords⟩ := List.forall_mem_cons.1 hwords
    by_cases hnil : words = []
    · subst hnil
      rw [joined_singleton, String.toList_append, List.append_assoc]
      cases trailing with
      | true => exact append_word hfirst (parted_comma gap rest) (append_comma hgap h)
      | false => exact append_word hfirst hrest h
    · rw [joined_cons _ _ _ hnil, String.append_assoc, String.toList_append, String.toList_append,
        List.append_assoc, List.append_assoc]
      exact append_word hfirst (parted_comma gap _) (append_comma hgap (ih hnil hwords))

end Readable

def behindWord (trailing : Bool) (after : List String) : TokenKind :=
  if after = [] ∧ trailing = false then .closeBrace else .comma

theorem exists_behind (hgap : isBlankText gap = true) (trailing : Bool)
    (hafter : ∀ v ∈ after, PropertyWord v)
    (before : List String) (word : String) : ∃ behind : String,
      joined ("," ++ gap) trailing (before ++ word :: after) =
          followed ("," ++ gap) before ++ (word ++ behind) ∧
        Parted (behind.toList ++ ['\x7d']) ∧
        ∀ p, ∃ ts, Lexer.Reads p (behind.toList ++ ['\x7d'])
          (⟨behindWord trailing after, (behindWord trailing after).text, p, 1⟩ :: ts) := by
  have hcomma {more : List Char} (h : Readable more) (p : Nat) :
      ∃ ts, Lexer.Reads p (("," ++ gap).toList ++ more) (⟨.comma, ",", p, 1⟩ :: ts) :=
    let ⟨_, hts⟩ := h _
    ⟨_, .comma hgap hts⟩
  have hbrace : Parted ['\x7d'] := .cons rfl []
  by_cases hnil : after = []
  · subst hnil
    refine ⟨if trailing then "," ++ gap else "", joined_concat .., ?_⟩
    cases trailing with
    | true => exact ⟨parted_comma gap _, hcomma .brace⟩
    | false => exact ⟨hbrace, fun p => ⟨_, .mark (k := .closeBrace) (by decide) (.nil _)⟩⟩
  · refine ⟨"," ++ gap ++ joined ("," ++ gap) trailing after, ?_, ?_⟩
    · rw [joined_append _ _ _ (List.cons_ne_nil _ _), joined_cons _ _ _ hnil, String.append_assoc]
    · rw [String.toList_append, List.append_assoc, behindWord, if_neg fun h => hnil h.1]
      exact ⟨parted_comma gap _, hcomma (.joined hgap trailing hnil hafter hbrace .brace)⟩

theorem parse_refused (hgap : isBlankText gap = true) (trailing : Bool)
    (hbefore : ∀ v ∈ before, EntryText (id v) fun _ => .ok (.ofWord v))
    (hword : EntryText word fun t => .error (.unexpected t))
    (hafter : ∀ v ∈ after, PropertyWord v) :
    let k := behindWord trailing after
    parse (objectText gap trailing (before ++ word :: after)) =
      .error (.unexpected
        ⟨k, k.text, 1 + (followed ("," ++ gap) before).length + word.length, 1⟩) := by
  intro k
  obtain ⟨behind, hjoined, hparted, hbehind⟩ := exists_behind hgap trailing hafter before word
  obtain ⟨ts, hts⟩ := hbehind (1 + (followed ("," ++ gap) before).length + word.length)
  have hends : k.EndsEntry := by
    simp only [k, behindWord]
    split
    · exact .inr rfl
    · exact .inl rfl
  obtain ⟨c, hreads, hentry⟩ := hword (d := ⟨_, ts⟩) hparted hts hends
  have hrefused : EntriesRead (1 + (followed ("," ++ gap) (before.map id)).length)
      (word.toList ++ (behind.toList ++ ['\x7d'])) c
      (.error (.unexpected
        ⟨k, k.text, 1 + (followed ("," ++ gap) before).length + word.length, 1⟩))
      ⟨.atEnd 0, []⟩ := ⟨by rwa [List.map_id], .refused hentry⟩
  obtain ⟨c', hc'⟩ := hrefused.followed hgap hbefore
  rw [List.map_id] at hc'
  refine parse_objectText (.error _) (c := c') (d := ⟨.atEnd 0, []⟩) ?_ rfl
  rw [hjoined, String.toList_append, String.toList_append, List.append_assoc, List.append_assoc]
  exact hc'

end

/-- Words that are properties on their own, as the keys and the values of an object, make an object
of these properties. As bare words they make the same one if none of them is a keyword; otherwise
the literal is refused at the token behind the first keyword. -/
theorem parse_shorthand {words : List String} (hne : words ≠ [])
    (hwords : ∀ w ∈ words, parse w = .ok (.property w)) {gap : String}
    (hgap : isBlankText gap = true) (trailing : Bool) :
    parse (objectText gap trailing (words.map (keyed gap))) = .ok (.object (words.map .ofWord)) ∧
      ((∀ w ∈ words, Keyword.ofText? w = none) →
        parse (objectText gap trailing words) = .ok (.object (words.map .ofWord))) ∧
      ∀ before w after, words = before ++ w :: after →
        (∀ v ∈ before, Keyword.ofText? v = none) → Keyword.ofText? w ≠ none →
          let k := behindWord trailing after
          parse (objectText gap trailing words) =
            .error (.unexpected
              ⟨k, k.text, 1 + (followed ("," ++ gap) before).length + w.length, 1⟩) := by
  have hword : ∀ w ∈ words, PropertyWord w := fun w hw => propertyWord_of_parse (hwords w hw)
  have hbare {w : String} (hw : w ∈ words) (hkeyword : Keyword.ofText? w = none) :
      EntryText w fun _ => .ok (.ofWord w) := (hword w hw).bare (wordKind_eq_symbol_iff.2 hkeyword)
  refine ⟨parse_entries hgap trailing hne _ fun w hw => (hword w hw).keyed hgap,
    fun hplain => ?_, ?_⟩
  · have hparse := parse_entries hgap trailing hne id fun w hw => hbare hw (hplain w hw)
    rwa [List.map_id] at hparse
  · rintro before w after rfl hbefore hkeyword
    have hw : w ∈ before ++ w :: after := List.mem_append_right _ List.mem_cons_self
    exact parse_refused hgap trailing (fun v hv => hbare (List.mem_append_left _ hv) (hbefore v hv))
      ((hword w hw).keyword ((hword w hw).names.resolve_left fun hk =>
        hkeyword (wordKind_eq_symbol_iff.1 hk)))
      fun v hv => hword v (List.mem_append_right _ (List.mem_cons_of_mem _ hv))

/-- Two bare words with a comma behind the last one, and a keyword behind a bare word. -/
theorem parse_shorthand_words :
    parse "\x7bfoo, bar, \x7d" = .ok (.object [.ofWord "foo", .ofWord "bar"]) ∧
      parse "\x7bfoo, map, \x7d" = .error (.unexpected ⟨.comma, ",", 9, 1⟩) := by
  have hfoo : parse "foo" = .ok (.property "foo") := by cbv
  have hbar : parse "bar" = .ok (.property "bar") := by cbv
  have hmap : parse "map" = .ok (.property "map") := by cbv
  have hbare : ∀ w ∈ ["foo", "bar"], parse w = .ok (.property w) :=
    List.forall_mem_cons.2 ⟨hfoo, List.forall_mem_singleton.2 hbar⟩
  have hkeyword : ∀ w ∈ ["foo", "map"], parse w = .ok (.property w) :=
    List.forall_mem_cons.2 ⟨hfoo, List.forall_mem_singleton.2 hmap⟩
  have hgap : isBlankText " " = true := by decide
  exact ⟨(parse_shorthand (List.cons_ne_nil _ _) hbare hgap true).2.1 (by decide),
    (parse_shorthand (List.cons_ne_nil _ _) hkeyword hgap true).2.2 ["foo"] "map" [] rfl (by decide)
      (by decide)⟩

/-- The keyword `map` is a property on its own, and the key and the value of an entry, but no entry
by itself. -/
theorem keyword_not_shorthand :
    parse "map" = .ok (.property "map") ∧
      parse "\x7bmap: map\x7d" = .ok (.object [.ofWord "map"]) ∧
      parse "\x7bmap\x7d" = .error (.unexpected ⟨.closeBrace, "\x7d", 4, 1⟩) := by
  refine ⟨?_, ?_, ?_⟩ <;> cbv

end DocSelect
