import DocSelect.Proofs.Tokens

/-!
# Writing quotes and patterns down

A text goes between quotes with a backslash before each of its quotes and backslashes, and a pattern
goes between slashes with a backslash before each of its slashes. Both are read back as they were,
with one exception: in a pattern a backslash is no escape unless a slash follows, so a pattern that
ends in one takes its closing slash along. No token is such a pattern.
-/
namespace DocSelect

def shielded (quote c : Char) : List Char := if c = quote ∨ c = '\\' then ['\\', c] else [c]

def slashed (c : Char) : List Char := if c = '/' then ['\\', c] else [c]

def quotedText (quote : Char) (s : String) : String :=
  String.ofList (quote :: (s.toList.flatMap (shielded quote) ++ [quote]))

def patternText (p : String) : String :=
  String.ofList ('r' :: '/' :: (p.toList.flatMap slashed ++ ['/']))

def EndsInBackslash (cs : List Char) : Prop := cs.getLast? = some '\\'

instance (cs : List Char) : Decidable (EndsInBackslash cs) :=
  inferInstanceAs (Decidable (cs.getLast? = some '\\'))

theorem endsInBackslash_cons_cons {c d : Char} {cs : List Char} :
    EndsInBackslash (c :: d :: cs) ↔ EndsInBackslash (d :: cs) := by
  rw [EndsInBackslash, EndsInBackslash, List.getLast?_cons_cons]

theorem endsInBackslash_cons {c : Char} (hc : c ≠ '\\') (cs : List Char) :
    EndsInBackslash (c :: cs) ↔ EndsInBackslash cs := by
  cases cs with
  | nil => simp [EndsInBackslash, hc]
  | cons d cs => exact endsInBackslash_cons_cons

-- ---------------------------------------------------------------------------
-- Between quotes
-- ---------------------------------------------------------------------------

namespace Scan

theorem quoted_shielded {quote : Char} (hquote : quote ≠ '\\') (cs rest : List Char) :
    quoted quote (cs.flatMap (shielded quote) ++ quote :: rest) =
      some (cs, (cs.flatMap (shielded quote)).length + 1) := by
  induction cs with
  | nil =>
    rw [List.flatMap_nil, List.nil_append, quoted.eq_def]
    exact if_pos rfl
  | cons c cs ih =>
    by_cases hc : c = quote ∨ c = '\\'
    · have hshield : shielded quote c = ['\\', c] := if_pos hc
      simp [hshield, quoted, hquote.symm, ih]
    · have hshield : shielded quote c = [c] := if_neg hc
      obtain ⟨hnquote, hnslash⟩ := not_or.1 hc
      rw [List.flatMap_cons, hshield, List.singleton_append, List.cons_append, quoted.eq_def]
      simp [hnquote, hnslash, ih]

-- ---------------------------------------------------------------------------
-- Between slashes
-- ---------------------------------------------------------------------------

theorem pattern_cons {c : Char} {cs : List Char} (hc : c ≠ '/')
    (hescape : c = '\\' → ∀ ds, cs ≠ '/' :: ds) :
    pattern (c :: cs) = (pattern cs).map fun (text, n) => (c :: text, n + 1) :=
  pattern.eq_4 c cs hc fun ds h heq => hescape h ds heq

theorem slashed_ne (c : Char) (cs ds : List Char) : slashed c ++ cs ≠ '/' :: ds := by
  unfold slashed
  split <;> simp_all

/-- What was slashed ends at the slash after it, but a backslash at its end takes that slash
along. -/
theorem pattern_slashed (cs : List Char) :
    pattern (cs.flatMap slashed ++ ['/']) =
      if EndsInBackslash cs then none else some (cs, (cs.flatMap slashed).length + 1) := by
  induction cs with
  | nil => rfl
  | cons c cs ih =>
    by_cases hslash : c = '/'
    · subst hslash
      have hends := endsInBackslash_cons (c := '/') (by decide) cs
      simp only [List.flatMap_cons, slashed, if_true, List.cons_append, List.nil_append,
        pattern, ih, hends]
      split <;> simp
    · have hself : slashed c = [c] := if_neg hslash
      rw [List.flatMap_cons, hself, List.singleton_append, List.cons_append]
      by_cases hback : c = '\\'
      · subst hback
        cases cs with
        | nil => rfl
        | cons d cs =>
          have hnext (ds : List Char) : (d :: cs).flatMap slashed ++ ['/'] ≠ '/' :: ds := by
            rw [List.flatMap_cons, List.append_assoc]
            exact slashed_ne d _ ds
          rw [pattern_cons hslash fun _ => hnext, ih]
          simp only [endsInBackslash_cons_cons]
          split <;> simp
      · rw [pattern_cons hslash fun h => absurd h hback, ih]
        simp only [endsInBackslash_cons hback]
        split <;> simp

theorem head_of_pattern_nil {cs : List Char} {n : Nat} (h : pattern cs = some ([], n)) :
    ∃ ds, cs = '/' :: ds := by
  unfold pattern at h
  split at h
  · cases h
  · exact ⟨_, rfl⟩
  all_goals
    obtain ⟨⟨text, n⟩, -, h⟩ := Option.map_eq_some_iff.1 h
    cases h

theorem not_endsInBackslash_of_pattern {cs text : List Char} {n : Nat}
    (h : pattern cs = some (text, n)) : ¬ EndsInBackslash text := by
  fun_induction pattern cs generalizing text n with
  | case1 => cases h
  | case2 cs =>
    cases h
    decide
  | case3 cs ih =>
    obtain ⟨⟨text, n⟩, htail, h⟩ := Option.map_eq_some_iff.1 h
    cases h
    exact (endsInBackslash_cons (by decide) text).not.2 (ih htail)
  | case4 c cs hslash hescape ih =>
    obtain ⟨⟨text, n⟩, htail, h⟩ := Option.map_eq_some_iff.1 h
    cases h
    cases text with
    | nil =>
      obtain ⟨ds, rfl⟩ := head_of_pattern_nil htail
      have hc : c ≠ '\\' := fun hc => hescape ds hc rfl
      simp [EndsInBackslash, hc]
    | cons d text => exact endsInBackslash_cons_cons.not.2 (ih htail)

theorem word_ne_regex {text value : String} {width n : Nat} :
    word text width ≠ lexeme .regex value n := by
  unfold word
  dsimp only
  repeat' split
  all_goals simp

theorem punctuation_ne_regex {c : Char} {cs : List Char} {value : String} {n : Nat} :
    punctuation c cs ≠ lexeme .regex value n := by
  unfold punctuation
  split
  · rename_i k hfind
    intro h
    obtain rfl := (Scan.lexeme.inj h).1
    exact absurd (List.mem_of_find?_eq_some hfind) (by decide)
  · simp

theorem not_endsInBackslash_of {cs : List Char} {value : String} {n : Nat}
    (h : of cs = lexeme .regex value n) : ¬ EndsInBackslash value.toList := by
  unfold of at h
  split at h
  · simp at h
  dsimp only at h
  split at h
  · simp at h
  split at h
  · split at h <;> simp at h
  split at h
  · split at h
    · rename_i hpattern
      obtain ⟨-, rfl, -⟩ := Scan.lexeme.inj h
      rw [String.toList_ofList]
      exact not_endsInBackslash_of_pattern hpattern
    · cases h
  split at h
  · simp at h
  split at h
  · exact absurd h word_ne_regex
  · exact absurd h punctuation_ne_regex

end Scan

-- ---------------------------------------------------------------------------
-- Tokens
-- ---------------------------------------------------------------------------

theorem lexeme_quotedText {quote : Char} (hquote : quote = '"' ∨ quote = '\'') (s : String) :
    Lexeme .string s (quotedText quote s).toList := by
  have hback : quote ≠ '\\' := by rcases hquote with rfl | rfl <;> decide
  have hvar : quote ≠ '$' := by rcases hquote with rfl | rfl <;> decide
  have hblank : isBlank quote = false := by rcases hquote with rfl | rfl <;> decide
  rw [quotedText, String.toList_ofList]
  refine .of_scan ?_ (by decide) fun c hc => Option.some.inj hc ▸ hblank
  rw [Scan.of.eq_def]
  simp [hvar, hquote, Scan.quoted_shielded hback]

theorem lexeme_patternText {p : String} (hp : ¬ EndsInBackslash p.toList) :
    Lexeme .regex p (patternText p).toList := by
  have hpattern := Scan.pattern_slashed p.toList
  rw [if_neg hp] at hpattern
  rw [patternText, String.toList_ofList]
  refine .of_scan ?_ (by decide) fun c hc => Option.some.inj hc ▸ by decide
  rw [Scan.of.eq_def]
  simp [hpattern]

theorem tokenize_patternText_of_ends {p : String} (hp : EndsInBackslash p.toList) :
    tokenize (patternText p) = .error (.unterminated (patternText p).length) := by
  have hpattern := Scan.pattern_slashed p.toList
  rw [if_pos hp] at hpattern
  have hscan : Scan.of (patternText p).toList = .unterminated := by
    rw [patternText, String.toList_ofList, Scan.of.eq_def]
    simp [hpattern]
  have hskip : Lexer.skipBlank ⟨(patternText p).toList, 0⟩ =
      ⟨(patternText p).toList, 0⟩ := by
    rw [patternText, String.toList_ofList]
    rfl
  simp only [tokenize, Lexer.ofText, Lexer.tokens, Lexer.next, hskip, hscan,
    Lexer.drop, Nat.zero_add, String.length_toList]

theorem Lexer.scan_of_next {l : Lexer} {t : Token} (h : l.next.1 = .ok t) :
    Scan.of l.skipBlank.rest = .lexeme t.kind t.value t.length := by
  unfold next at h
  dsimp only at h
  split at h
  · rename_i hof
    obtain rfl := Except.ok.inj h
    exact hof
  · cases h
  · cases h

-- ---------------------------------------------------------------------------
-- Reading back
-- ---------------------------------------------------------------------------

/-- Between quotes every text is one token again, and between slashes every pattern that does not
end in a backslash. Other patterns cannot be written at all: nothing a lexer takes from any text is
one. -/
theorem quotes_and_patterns_read_back :
    (∀ quote ∈ ['"', '\''], ∀ s : String, tokenize (quotedText quote s) =
      .ok [⟨.string, s, 0, (quotedText quote s).length⟩,
        .atEnd (quotedText quote s).length]) ∧
    (∀ p : String, tokenize (patternText p) =
      if EndsInBackslash p.toList then .error (.unterminated (patternText p).length)
      else .ok [⟨.regex, p, 0, (patternText p).length⟩, .atEnd (patternText p).length]) ∧
    (∀ (s : String) (ts : List Token), tokenize s = .ok ts →
      ∀ t ∈ ts, t.kind = .regex → ¬ EndsInBackslash t.value.toList) ∧
    (∀ (l : Lexer) (t : Token), l.next.1 = .ok t → t.kind = .regex →
      ¬ EndsInBackslash t.value.toList) := by
  have hnext (l : Lexer) (t : Token) (h : l.next.1 = .ok t) (ht : t.kind = .regex) :
      ¬ EndsInBackslash t.value.toList :=
    Scan.not_endsInBackslash_of (ht ▸ Lexer.scan_of_next h)
  refine ⟨fun quote hquote s => ?_, fun p => ?_, fun s ts hts t ht hkind => ?_, hnext⟩
  · have hone := (lexeme_quotedText (by simpa using hquote) s).tokenize
    rwa [String.ofList_toList, String.length_toList] at hone
  · split
    · exact tokenize_patternText_of_ends ‹_›
    · have hone := (lexeme_patternText ‹_›).tokenize
      rwa [String.ofList_toList, String.length_toList] at hone
  · obtain ⟨l, hl⟩ := Lexer.exists_next_of_tokens hts t ht
    exact hnext l t hl hkind

/-- A text with both quotes and a backslash in it, a pattern with an escape of its own, and one that
cannot be written. -/
theorem quotes_and_patterns_read_back_texts :
    tokenize "'it\\'s a \\\\ or a \"'" =
      .ok [⟨.string, "it's a \\ or a \"", 0, 19⟩, .atEnd 19] ∧
    tokenize "r/\\d\\/\\d/" = .ok [⟨.regex, "\\d/\\d", 0, 9⟩, .atEnd 9] ∧
    ¬ EndsInBackslash "\\d/\\d".toList ∧
    tokenize "r/a\\/" = .error (.unterminated 5) := by
  obtain ⟨hquoted, hpattern, htokens, -⟩ := quotes_and_patterns_read_back
  have hone : tokenize "r/\\d\\/\\d/" = .ok [⟨.regex, "\\d/\\d", 0, 9⟩, .atEnd 9] :=
    hpattern "\\d/\\d"
  exact ⟨hquoted '\'' (by decide) "it's a \\ or a \"", hone,
    htokens _ _ hone _ List.mem_cons_self rfl, hpattern "a\\"⟩

end DocSelect
