import DocSelect.Proofs.Tokens.Lexeme

/-!
# Where tokens stand

The tokens of a text cover it up to white space, in order and without overlap, and the end of the
input is the last one. What a token covers is the same token on its own, and with spaces between
them all of them are the same again: no token owes anything to its neighbours.
-/
namespace DocSelect

def Token.source (t : Token) (s : String) : String :=
  String.ofList ((s.toList.drop t.position).take t.length)

structure Lexeme (kind : TokenKind) (value : String) (text : List Char) : Prop where
  kind_ne : kind ≠ .eof
  pos : 0 < text.length
  head : ∀ c ∈ text.head?, isBlank c = false
  scan {rest : List Char} : Stops rest → Scan.of (text ++ rest) = .lexeme kind value text.length

inductive Lexed : Nat → List Char → List Token → Prop where
  | blank {p : Nat} {cs : List Char} (h : ∀ c ∈ cs, isBlank c = true) :
    Lexed p cs [.atEnd (p + cs.length)]
  | token {p : Nat} {gap text rest : List Char} {kind : TokenKind} {value : String}
    {ts : List Token} (hgap : ∀ c ∈ gap, isBlank c = true) (htext : Lexeme kind value text)
    (hrest : Lexed (p + gap.length + text.length) rest ts) :
    Lexed p (gap ++ (text ++ rest)) (⟨kind, value, p + gap.length, text.length⟩ :: ts)

-- ---------------------------------------------------------------------------
-- The lexer takes lexemes
-- ---------------------------------------------------------------------------

theorem Scan.ne_eof_of_cons {c : Char} {cs : List Char} {value : String} {width : Nat} :
    of (c :: cs) ≠ lexeme .eof value width := by
  have hword (text : String) (n : Nat) : word text n ≠ lexeme .eof value width := by
    unfold word
    dsimp only
    repeat' split
    all_goals simp
  have hpunctuation : punctuation c cs ≠ lexeme .eof value width := by
    unfold punctuation
    split
    · rename_i k hfind
      intro h
      obtain ⟨rfl, -⟩ := Scan.lexeme.inj h
      exact absurd (List.mem_of_find?_eq_some hfind) (by decide)
    · simp
  rw [of.eq_def]
  dsimp only
  repeat' split
  all_goals first | exact hword _ _ | exact hpunctuation | simp

namespace Lexer

/-- Every text begins with white space, perhaps none, and goes on with a character that is none. -/
theorem exists_gap (cs : List Char) :
    ∃ gap rest, cs = gap ++ rest ∧ (∀ c ∈ gap, isBlank c = true) ∧
    ∀ c ∈ rest.head?, isBlank c = false := by
  refine ⟨cs.takeWhile isBlank, cs.dropWhile isBlank, List.takeWhile_append_dropWhile.symm,
    fun _ => List.mem_takeWhile_imp, fun c hc => ?_⟩
  have hnot := List.head?_dropWhile_not isBlank cs
  rw [Option.mem_def.1 hc] at hnot
  simpa using hnot

section

variable {gap rest : List Char} (p : Nat) (hgap : ∀ c ∈ gap, isBlank c = true)
  (hhead : ∀ c ∈ rest.head?, isBlank c = false)
include hgap hhead

theorem skipBlank_gap : skipBlank ⟨gap ++ rest, p⟩ = ⟨rest, p + gap.length⟩ := by
  simp only [skipBlank, drop, takeWhile_append_of_stop hgap hhead, List.drop_left]

theorem tokens_lexeme {kind : TokenKind} {value : String} {width : Nat}
    (hscan : Scan.of rest = .lexeme kind value width) (hkind : kind ≠ .eof) (fuel : Nat) :
    tokens (fuel + 1) ⟨gap ++ rest, p⟩ =
      (tokens fuel ⟨rest.drop width, p + gap.length + width⟩).map
        (⟨kind, value, p + gap.length, width⟩ :: ·) := by
  simp only [tokens, next, skipBlank_gap p hgap hhead, hscan, drop, hkind, if_false]

end

theorem tokens_blank {cs : List Char} (p : Nat) (h : ∀ c ∈ cs, isBlank c = true) (fuel : Nat) :
    tokens (fuel + 1) ⟨cs, p⟩ = .ok [.atEnd (p + cs.length)] := by
  have hskip : skipBlank ⟨cs ++ [], p⟩ = ⟨[], p + cs.length⟩ :=
    skipBlank_gap p h fun _ hc => by cases hc
  rw [List.append_nil] at hskip
  simp only [tokens, next, hskip, Scan.of, if_true, Token.atEnd]

theorem lexed_of_tokens {fuel : Nat} {p : Nat} {cs : List Char} {ts : List Token}
    (h : tokens fuel ⟨cs, p⟩ = .ok ts) (hfuel : cs.length < fuel) : Lexed p cs ts := by
  induction fuel generalizing p cs ts with
  | zero => exact absurd hfuel (Nat.not_lt_zero _)
  | succ fuel ih =>
    obtain ⟨gap, rest, rfl, hgap, hhead⟩ := exists_gap cs
    rcases hrest : rest with _ | ⟨c, cs⟩
    · rw [hrest, List.append_nil, tokens_blank p hgap] at h
      cases h
      rw [List.append_nil]
      exact .blank hgap
    rcases hscan : Scan.of rest with ⟨kind, value, width⟩ | c | _
    · have hkind : kind ≠ .eof := by
        rintro rfl
        exact Scan.ne_eof_of_cons (hrest ▸ hscan)
      obtain ⟨hpos, hle, hagain⟩ := Scan.takes_of hscan hkind
      rw [tokens_lexeme p hgap hhead hscan hkind] at h
      rcases hts : tokens fuel ⟨rest.drop width, p + gap.length + width⟩ with e | ts'
      · rw [hts] at h
        cases h
      · rw [hts] at h
        cases h
        have hwidth : (rest.take width).length = width := List.length_take_of_le hle
        have htext : Lexeme kind value (rest.take width) := by
          refine ⟨hkind, hwidth.symm ▸ hpos, fun c hc => ?_,
            fun hstop => hwidth.symm ▸ hagain hstop⟩
          rw [List.head?_take, if_neg (Nat.ne_of_gt hpos)] at hc
          exact hhead c hc
        have htail := ih hts (by
          rw [List.length_append] at hfuel
          rw [List.length_drop]
          omega)
        have hcons := Lexed.token (p := p) hgap htext (hwidth.symm ▸ htail)
        rw [hwidth, List.take_append_drop] at hcons
        exact hrest ▸ hcons
    · simp only [tokens, next, skipBlank_gap p hgap hhead, hscan] at h
      cases h
    · simp only [tokens, next, skipBlank_gap p hgap hhead, hscan] at h
      cases h

theorem exists_next_of_tokens {fuel : Nat} {l : Lexer} {ts : List Token}
    (h : tokens fuel l = .ok ts) : ∀ t ∈ ts, ∃ l' : Lexer, l'.next.1 = .ok t := by
  induction fuel generalizing l ts with
  | zero =>
    cases h
    exact fun t ht => absurd ht List.not_mem_nil
  | succ fuel ih =>
    rw [tokens] at h
    split at h
    · cases h
    · rename_i token l' hnext
      have hhere : l.next.1 = .ok token := by rw [hnext]
      split at h
      · cases h
        exact fun t ht => ⟨l, List.mem_singleton.1 ht ▸ hhere⟩
      · rcases hts : tokens fuel l' with e | ts'
        · rw [hts] at h
          cases h
        · rw [hts] at h
          cases h
          exact List.forall_mem_cons.2 ⟨⟨l, hhere⟩, ih hts⟩

end Lexer

theorem lexed_of_tokenize {s : String} {ts : List Token} (h : tokenize s = .ok ts) :
    Lexed 0 s.toList ts :=
  Lexer.lexed_of_tokens h (Nat.lt_succ_self _)

-- ---------------------------------------------------------------------------
-- Spans
-- ---------------------------------------------------------------------------

namespace Lexed

variable {p : Nat} {cs : List Char} {ts : List Token}

/-- The end of the input is the last token, and the only one of its kind and without characters. -/
theorem exists_lexemes (h : Lexed p cs ts) :
    ∃ lexemes, ts = lexemes ++ [.atEnd (p + cs.length)] ∧
    ∀ t ∈ lexemes, t.kind ≠ .eof ∧ 0 < t.length := by
  induction h with
  | blank => exact ⟨[], rfl, fun _ ht => absurd ht List.not_mem_nil⟩
  | @token p gap text rest kind value ts hgap htext _ ih =>
    obtain ⟨lexemes, rfl, hall⟩ := ih
    refine ⟨⟨kind, value, p + gap.length, text.length⟩ :: lexemes, ?_,
      List.forall_mem_cons.2 ⟨⟨htext.kind_ne, htext.pos⟩, hall⟩⟩
    simp only [List.cons_append, List.length_append, Nat.add_assoc]

theorem bounds (h : Lexed p cs ts) :
    ∀ t ∈ ts, p ≤ t.position ∧ t.stop ≤ p + cs.length := by
  induction h with
  | blank =>
    intro t ht
    obtain rfl := List.mem_singleton.1 ht
    exact ⟨Nat.le_add_right _ _, Nat.le_refl _⟩
  | token _ _ _ ih =>
    intro t ht
    simp only [List.length_append]
    rcases List.mem_cons.1 ht with rfl | ht
    · simp only [Token.stop]
      omega
    · have := ih t ht
      omega

theorem ordered (h : Lexed p cs ts) : ts.Pairwise fun t u => t.stop ≤ u.position := by
  induction h with
  | blank => exact List.pairwise_singleton _ _
  | token _ _ hrest ih => exact List.pairwise_cons.2 ⟨fun u hu => (hrest.bounds u hu).1, ih⟩

theorem blank_outside (h : Lexed p cs ts) {i : Nat} {c : Char} (hc : cs[i]? = some c)
    (hout : ∀ t ∈ ts, ¬ (t.position ≤ p + i ∧ p + i < t.stop)) : isBlank c = true := by
  induction h generalizing i with
  | blank h => exact h c (List.mem_of_getElem? hc)
  | @token p gap text rest _ _ ts hgap _ _ ih =>
    have hhere := hout _ List.mem_cons_self
    simp only [Token.stop] at hhere
    by_cases hi : i < gap.length
    · rw [List.getElem?_append_left hi] at hc
      exact hgap c (List.mem_of_getElem? hc)
    · rw [List.getElem?_append_right (by omega), List.getElem?_append_right (by omega)] at hc
      refine ih hc fun t ht => ?_
      have := hout t (List.mem_cons_of_mem _ ht)
      have hplace : p + gap.length + text.length + (i - gap.length - text.length) =
          p + i := by omega
      rwa [hplace]

theorem lexeme_covered (h : Lexed p cs ts) : ∀ t ∈ ts, t.kind ≠ .eof →
    Lexeme t.kind t.value ((cs.drop (t.position - p)).take t.length) := by
  induction h with
  | blank =>
    intro t ht hkind
    obtain rfl := List.mem_singleton.1 ht
    exact absurd rfl hkind
  | @token p gap text rest _ _ ts _ htext hrest ih =>
    intro t ht hkind
    rcases List.mem_cons.1 ht with rfl | ht
    · simpa using htext
    · have hle := (hrest.bounds t ht).1
      have hplace : t.position - p =
          gap.length + (text.length + (t.position - (p + gap.length + text.length))) := by
        omega
      rw [hplace, List.drop_length_add_append, List.drop_length_add_append]
      exact ih t ht hkind

end Lexed

-- ---------------------------------------------------------------------------
-- Lexemes on their own and together
-- ---------------------------------------------------------------------------

section

variable {kind : TokenKind} {value : String} {text gap rest : List Char}

theorem Lexeme.of_scan (hscan : Scan.of text = .lexeme kind value text.length)
    (hkind : kind ≠ .eof)
    (hhead : ∀ c ∈ text.head?, isBlank c = false) : Lexeme kind value text where
  kind_ne := hkind
  pos := (Scan.takes_of hscan hkind).pos
  head := hhead
  scan {rest} hrest := by
    have hagain := (Scan.takes_of hscan hkind).again hrest
    rwa [List.take_length] at hagain

theorem Lexeme.tokens (h : Lexeme kind value text) (hgap : ∀ c ∈ gap, isBlank c = true)
    (hrest : Stops rest) (p fuel : Nat) :
    Lexer.tokens (fuel + 1) ⟨gap ++ (text ++ rest), p⟩ =
      (Lexer.tokens fuel ⟨rest, p + gap.length + text.length⟩).map
        (⟨kind, value, p + gap.length, text.length⟩ :: ·) := by
  have hhead : ∀ c ∈ (text ++ rest).head?, isBlank c = false := by
    obtain ⟨d, ds, rfl⟩ := List.exists_cons_of_length_pos h.pos
    exact h.head
  rw [Lexer.tokens_lexeme p hgap hhead (h.scan hrest) h.kind_ne, List.drop_left]

theorem Lexeme.tokenize (h : Lexeme kind value text) :
    tokenize (String.ofList text) =
      .ok [⟨kind, value, 0, text.length⟩, .atEnd text.length] := by
  have hnil : ∀ c ∈ ([] : List Char), isBlank c = true := fun _ hc => absurd hc List.not_mem_nil
  have hone := h.tokens hnil .nil 0 text.length
  obtain ⟨n, hn⟩ := Nat.exists_eq_add_one.2 h.pos
  rw [hn, Lexer.tokens_blank _ hnil, ← hn] at hone
  simpa [DocSelect.tokenize, Lexer.ofText, Except.map] using hone

end

theorem tokens_spaced (text : Token → List Char) {lexemes : List Token}
    (h : ∀ t ∈ lexemes, Lexeme t.kind t.value (text t)) {gap : List Char}
    (hgap : ∀ c ∈ gap, isBlank c = true) (p : Nat) {fuel : Nat}
    (hfuel : (gap ++ [' '].intercalate (lexemes.map text)).length < fuel) :
    ∃ ts, Lexer.tokens fuel ⟨gap ++ [' '].intercalate (lexemes.map text), p⟩ = .ok ts ∧
      ts.map (fun t => (t.kind, t.value)) =
        lexemes.map (fun t => (t.kind, t.value)) ++ [(.eof, "")] := by
  induction lexemes generalizing gap p fuel with
  | nil =>
    obtain ⟨fuel, rfl⟩ := Nat.exists_eq_add_one.2 (Nat.zero_lt_of_lt hfuel)
    refine ⟨_, Lexer.tokens_blank p ?_ fuel, rfl⟩
    simpa using hgap
  | cons t lexemes ih =>
    have ht := h t List.mem_cons_self
    obtain ⟨fuel, rfl⟩ := Nat.exists_eq_add_one.2 (Nat.zero_lt_of_lt hfuel)
    have hspace : ∀ c ∈ [' '], isBlank c = true := fun c hc => by
      rw [List.mem_singleton.1 hc]
      rfl
    -- after the last lexeme the text ends, after every other one there is a space
    obtain ⟨gap', hgap', hstops, hjoin⟩ : ∃ gap', (∀ c ∈ gap', isBlank c = true) ∧
        Stops (gap' ++ [' '].intercalate (lexemes.map text)) ∧
        [' '].intercalate ((t :: lexemes).map text) =
          text t ++ (gap' ++ [' '].intercalate (lexemes.map text)) := by
      cases lexemes with
      | nil => exact ⟨[], fun _ hc => absurd hc List.not_mem_nil, .nil, by simp⟩
      | cons u lexemes =>
        refine ⟨[' '], hspace, .space _, ?_⟩
        rw [List.map_cons, List.map_cons, List.intercalate_cons_cons, List.append_assoc]
    rw [hjoin] at hfuel ⊢
    have hpos := ht.pos
    have hless : (gap' ++ [' '].intercalate (lexemes.map text)).length < fuel := by
      simp only [List.length_append] at hfuel ⊢
      omega
    obtain ⟨ts, hts, hkinds⟩ := ih (fun u hu => h u (List.mem_cons_of_mem _ hu)) hgap'
      (p + gap.length + (text t).length) hless
    refine ⟨⟨t.kind, t.value, p + gap.length, (text t).length⟩ :: ts, ?_, by simp [hkinds]⟩
    rw [ht.tokens hgap hstops, hts]
    rfl

-- ---------------------------------------------------------------------------
-- The tokens of a selector
-- ---------------------------------------------------------------------------

/-- The tokens of a text: lexemes, and the end of the input as the last one. -/
structure Covers (ts : List Token) (s : String) : Prop where
  last : ts.getLast? = some (.atEnd s.length)
  lexemes : ∀ t ∈ ts.dropLast, t.kind ≠ .eof ∧ 0 < t.length
  inside : ∀ t ∈ ts, t.stop ≤ s.length
  /-- one span ends before the next begins -/
  ordered : ts.Pairwise fun t u => t.stop ≤ u.position
  outside {i : Nat} {c : Char} : s.toList[i]? = some c →
    (∀ t ∈ ts, ¬ (t.position ≤ i ∧ i < t.stop)) → isBlank c = true
  /-- what a lexeme covers is that token again -/
  alone : ∀ t ∈ ts.dropLast,
    tokenize (t.source s) = .ok [{ t with position := 0 }, .atEnd t.length]
  /-- and with single spaces between them they are the same tokens -/
  spaced : ∃ us, tokenize (" ".intercalate (ts.dropLast.map (·.source s))) = .ok us ∧
    us.map (fun t => (t.kind, t.value)) = ts.map fun t => (t.kind, t.value)

/-- The tokens of a selector cover it up to white space, and none depends on those around it. -/
theorem covers_of_tokenize {s : String} {ts : List Token} (h : tokenize s = .ok ts) :
    Covers ts s := by
  have hl := lexed_of_tokenize h
  obtain ⟨lexemes, hts, hall⟩ := hl.exists_lexemes
  rw [Nat.zero_add, String.length_toList] at hts
  have hdrop : ts.dropLast = lexemes := by rw [hts, List.dropLast_concat]
  have hmem {t : Token} (ht : t ∈ lexemes) : t ∈ ts := hts ▸ List.mem_append_left _ ht
  have hcovered : ∀ t ∈ lexemes,
      Lexeme t.kind t.value ((s.toList.drop t.position).take t.length) := fun t ht =>
    hl.lexeme_covered t (hmem ht) (hall t ht).1
  have hinside : ∀ t ∈ ts, t.stop ≤ s.length := fun t ht => by
    have hstop := (hl.bounds t ht).2
    rwa [Nat.zero_add, String.length_toList] at hstop
  refine ⟨by rw [hts, List.getLast?_concat], hdrop ▸ hall, hinside, hl.ordered,
    fun hc hout => ?_, ?_, ?_⟩
  · exact hl.blank_outside hc (by simpa using hout)
  · rw [hdrop]
    intro t ht
    have hlength : ((s.toList.drop t.position).take t.length).length = t.length := by
      have hstop := hinside t (hmem ht)
      rw [Token.stop, ← String.length_toList] at hstop
      rw [List.length_take, List.length_drop]
      omega
    have hone := (hcovered t ht).tokenize
    rwa [hlength] at hone
  · have hnil : ∀ c ∈ ([] : List Char), isBlank c = true :=
      fun _ hc => absurd hc List.not_mem_nil
    obtain ⟨us, hus, hkinds⟩ := tokens_spaced
      (fun t => (s.toList.drop t.position).take t.length) hcovered hnil 0 (Nat.lt_succ_self _)
    have htext : (" ".intercalate (lexemes.map (·.source s))).toList =
        [' '].intercalate (lexemes.map fun t => (s.toList.drop t.position).take t.length) := by
      simp [String.toList_intercalate, Token.source, Function.comp_def]
    refine ⟨us, ?_, by rw [hkinds, hts]; simp [Token.atEnd]⟩
    rw [hdrop, tokenize, Lexer.ofText, htext]
    exact hus

/-- A number with a mark, a point that belongs to no number, and a name right after digits. -/
theorem covers_of_tokenize_numbers :
    let tokens : List Token :=
      [⟨.number, "1.5f", 0, 4⟩, ⟨.dot, ".", 4, 1⟩, ⟨.number, "2", 5, 1⟩,
        ⟨.symbol, "foo", 6, 3⟩, ⟨.eof, "", 9, 0⟩]
    tokenize "1.5f.2foo" = .ok tokens ∧ Covers tokens "1.5f.2foo" := by
  have h : tokenize "1.5f.2foo" =
      .ok [⟨.number, "1.5f", 0, 4⟩, ⟨.dot, ".", 4, 1⟩, ⟨.number, "2", 5, 1⟩,
      ⟨.symbol, "foo", 6, 3⟩, ⟨.eof, "", 9, 0⟩] := by decide +kernel
  exact ⟨h, covers_of_tokenize h⟩

end DocSelect
