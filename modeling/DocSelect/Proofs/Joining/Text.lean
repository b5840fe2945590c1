import DocSelect.Proofs.Tokens

/-!
# Text in front of other text

A text has the same tokens in front of a space, a bracket, a comma, a colon or a semicolon as at its
end, for none of these goes on with a token. So the tokens of a text put together at such places are
those of its parts.
-/
namespace DocSelect

def isParting (c : Char) : Bool :=
  [' ', ',', ':', ';', '(', ')', '[', ']', '\x7b', '\x7d'].contains c

def Parted (rest : List Char) : Prop := ∀ c ∈ rest.head?, isParting c = true

theorem Parted.nil : Parted [] := fun _ h => by cases h

theorem Parted.cons {c : Char} (h : isParting c = true) (cs : List Char) : Parted (c :: cs) :=
  fun _ hc => by cases hc; exact h

theorem Parted.head_not {p : Char → Bool} {rest : List Char} (h : Parted rest)
    (hp : ([' ', ',', ':', ';', '(', ')', '[', ']', '\x7b', '\x7d'].all fun c => !p c) = true) :
    ∀ c ∈ rest.head?, p c = false :=
  fun c hc => by simpa using List.all_eq_true.1 hp c (List.contains_iff_mem.1 (h c hc))

/-- A test of the next character does not see behind the end of a text that is parted from the
rest. -/
theorem look_append {p : Char → Bool} (cs : List Char) {rest : List Char}
    (hrest : ∀ c ∈ rest.head?, p c = false) :
    ((cs ++ rest).head?.map p).getD false = (cs.head?.map p).getD false := by
  cases cs with
  | nil =>
    cases rest with
    | nil => rfl
    | cons c rest => simpa using hrest c rfl
  | cons c cs => rfl

namespace Scan

variable {c : Char} {cs rest : List Char} {kind : TokenKind} {value : String} {width : Nat}

-- ---------------------------------------------------------------------------
-- One token
-- ---------------------------------------------------------------------------

theorem quoted_append {quote : Char} {text : List Char} {n : Nat}
    (h : quoted quote cs = some (text, n)) (rest : List Char) :
    quoted quote (cs ++ rest) = some (text, n) := by
  have hagain := (quoted_again h).2 (cs.drop n ++ rest)
  rwa [← List.append_assoc, List.take_append_drop] at hagain

theorem pattern_append {text : List Char} {n : Nat} (h : pattern cs = some (text, n))
    (rest : List Char) : pattern (cs ++ rest) = some (text, n) := by
  have hagain := (pattern_again h).2.2 (cs.drop n ++ rest)
  rwa [← List.append_assoc, List.take_append_drop] at hagain

theorem fraction_append (cs : List Char) (hrest : Parted rest) :
    fraction (cs ++ rest) = fraction cs := by
  have hdigit := hrest.head_not (p := Char.isDigit) (by decide)
  match cs with
  | [] =>
    rw [List.nil_append]
    unfold fraction
    split
    · exact absurd (hrest '.' rfl) (by decide)
    · rfl
  | c :: cs =>
    by_cases hc : c = '.'
    · subst hc
      rw [List.cons_append, fraction, fraction, look_append cs hdigit,
        takeWhile_append_of_head_not cs hdigit]
    · simp [fraction, hc]

theorem floatMark_append (cs : List Char) (hrest : Parted rest) :
    floatMark (cs ++ rest) = floatMark cs := by
  have hname := hrest.head_not (p := isNameChar) (by decide)
  match cs with
  | [] =>
    rw [List.nil_append]
    unfold floatMark
    split
    · exact absurd (hrest 'f' rfl) (by decide)
    · rfl
  | c :: cs =>
    by_cases hc : c = 'f'
    · subst hc
      rw [List.cons_append, floatMark, floatMark, look_append cs hname]
    · simp [floatMark, hc]

theorem number_append (cs : List Char) (hrest : Parted rest) : number (cs ++ rest) = number cs := by
  have hwhole := takeWhile_append_of_head_not cs (hrest.head_not (p := Char.isDigit) (by decide))
  have hle := (List.takeWhile_prefix Char.isDigit (l := cs)).length_le
  have hpart :=
    (begins_append_of_drop (List.takeWhile_prefix Char.isDigit (l := cs))
      (fraction_begins _)).length_le
  unfold number
  rw [hwhole]
  dsimp only
  rw [List.drop_append_of_le_length hle, fraction_append _ hrest,
    List.drop_append_of_le_length hpart, floatMark_append _ hrest]

theorem text_of_punctuation_parted :
    ∀ k ∈ TokenKind.punctuation, k.text.toList.tail.all (fun c => !isParting c) = true := by
  decide

theorem isPrefixOf_append (hrest : Parted rest) {k : TokenKind} (hk : k ∈ TokenKind.punctuation) :
    k.text.toList.isPrefixOf (c :: cs ++ rest) = k.text.toList.isPrefixOf (c :: cs) := by
  rw [Bool.eq_iff_iff, List.isPrefixOf_iff_prefix, List.isPrefixOf_iff_prefix]
  refine ⟨fun h => ?_, fun h => h.trans (List.prefix_append _ _)⟩
  rcases List.prefix_or_prefix_of_prefix h (List.prefix_append (c :: cs) rest) with h' |
    ⟨ds, hds⟩
  · exact h'
  rcases ds with _ | ⟨d, ds⟩
  · exact ⟨[], by rw [List.append_nil, ← hds, List.append_nil]⟩
  · rw [← hds] at h
    obtain ⟨es, hes⟩ := (List.prefix_append_right_inj (c :: cs)).1 h
    have hd : isParting d = true := hrest d (hes ▸ rfl)
    have htail : d ∈ k.text.toList.tail := by
      rw [← hds]
      exact List.mem_append_right cs List.mem_cons_self
    have hplain := List.all_eq_true.1 (text_of_punctuation_parted k hk) d htail
    exact absurd hd (by simpa using hplain)

theorem punctuation_append (hrest : Parted rest) :
    punctuation c (cs ++ rest) = punctuation c cs := by
  have hfind (ks : List TokenKind) (hks : ∀ k ∈ ks, k ∈ TokenKind.punctuation) :
      ks.find? (fun k => k.text.toList.isPrefixOf (c :: cs ++ rest)) =
        ks.find? (fun k => k.text.toList.isPrefixOf (c :: cs)) := by
    induction ks with
    | nil => rfl
    | cons k ks ih =>
      obtain ⟨hk, hks⟩ := List.forall_mem_cons.1 hks
      rw [List.find?_cons, List.find?_cons, isPrefixOf_append hrest hk, ih hks]
  unfold punctuation
  rw [← List.cons_append, hfind _ fun _ hk => hk]

/-- The first token of a text is still the first one where the text goes on with a parting
character. -/
theorem of_append (hne : cs ≠ []) (h : of cs = lexeme kind value width) (hrest : Parted rest) :
    of (cs ++ rest) = lexeme kind value width := by
  obtain ⟨c, cs, rfl⟩ := List.exists_cons_of_ne_nil hne
  have hname := hrest.head_not (p := isNameChar) (by decide)
  have hstart := look_append cs (hrest.head_not (p := isNameStart) (by decide))
  have hword : (c :: (cs ++ rest)).takeWhile isNameChar = (c :: cs).takeWhile isNameChar :=
    takeWhile_append_of_head_not (c :: cs) hname
  have hnumber : number (c :: (cs ++ rest)) = number (c :: cs) := number_append (c :: cs) hrest
  have hslash : (cs ++ rest).head? = some '/' ↔ cs.head? = some '/' := by
    cases cs with
    | nil => exact iff_of_false (fun h => absurd (hrest '/' h) (by decide)) (by decide)
    | cons d cs => exact Iff.rfl
  rw [of.eq_def] at h
  dsimp only at h
  rw [List.cons_append, of.eq_def]
  simp only [hstart, hslash, hword, hnumber, takeWhile_append_of_head_not cs hname,
    punctuation_append hrest]
  split at h
  · rename_i hvar
    rwa [if_pos hvar]
  · rename_i hvar
    rw [if_neg hvar]
    split at h
    · rename_i hquote
      rw [if_pos hquote]
      split at h
      · rename_i hquoted
        rwa [quoted_append hquoted]
      · cases h
    · rename_i hquote
      rw [if_neg hquote]
      split at h
      · rename_i hregex
        rw [if_pos hregex]
        obtain ⟨ds, rfl⟩ := List.head?_eq_some_iff.1 hregex.2
        split at h
        · rename_i hpattern
          rwa [List.cons_append, show List.drop 1 ('/' :: (ds ++ rest)) =
            List.drop 1 ('/' :: ds) ++ rest from rfl, pattern_append hpattern]
        · cases h
      · rename_i hregex
        rwa [if_neg hregex]

def marks : List (TokenKind × Char) :=
  [(.comma, ','), (.semicolon, ';'), (.openParen, '('), (.closeParen, ')'), (.openBracket, '['),
    (.closeBracket, ']'), (.openBrace, '\x7b'), (.closeBrace, '\x7d')]

theorem of_mark {k : TokenKind} (h : (k, c) ∈ marks) (rest : List Char) :
    of (c :: rest) = lexeme k k.text 1 ∧ isParting c = true ∧ isBlank c = false := by
  simp only [marks, List.mem_cons, Prod.mk.injEq, List.not_mem_nil, or_false] at h
  rcases h with h | h | h | h | h | h | h | h <;> obtain ⟨rfl, rfl⟩ := h <;>
    exact ⟨rfl, rfl, rfl⟩

end Scan

-- ---------------------------------------------------------------------------
-- All tokens
-- ---------------------------------------------------------------------------

def Token.moved (p : Nat) (t : Token) : Token := { t with position := p + t.position }

def Lexer.Reads (p : Nat) (cs : List Char) (ts : List Token) : Prop :=
  ∀ fuel, cs.length < fuel → tokens fuel ⟨cs, p⟩ = .ok ts

namespace Lexer.Reads

variable {p q fuel : Nat} {gap cs rest : List Char} {ts us : List Token}

theorem nil (p : Nat) : Reads p [] [.atEnd p] := by
  intro fuel hfuel
  obtain ⟨fuel, rfl⟩ := Nat.exists_eq_add_one.2 (Nat.zero_lt_of_lt hfuel)
  exact tokens_blank p (fun _ h => absurd h List.not_mem_nil) fuel

theorem lexeme {kind : TokenKind} {value : String} {width : Nat}
    (hgap : ∀ c ∈ gap, isBlank c = true) (hhead : ∀ c ∈ rest.head?, isBlank c = false)
    (hscan : Scan.of rest = .lexeme kind value width) (hkind : kind ≠ .eof) (hpos : 0 < width)
    (h : Reads (p + gap.length + width) (rest.drop width) ts) :
    Reads p (gap ++ rest) (⟨kind, value, p + gap.length, width⟩ :: ts) := by
  intro fuel hfuel
  obtain ⟨fuel, rfl⟩ := Nat.exists_eq_add_one.2 (Nat.zero_lt_of_lt hfuel)
  have hne : 0 < rest.length := List.length_pos_iff.2 fun hnil => by
    rw [hnil] at hscan
    cases hscan
    exact hkind rfl
  have hfuel : (rest.drop width).length < fuel := by
    rw [List.length_append] at hfuel
    rw [List.length_drop]
    omega
  rw [tokens_lexeme p hgap hhead hscan hkind, h fuel hfuel]
  rfl

theorem blank (hgap : ∀ c ∈ gap, isBlank c = true) (h : Reads (p + gap.length) rest ts) :
    Reads p (gap ++ rest) ts := by
  intro fuel hfuel
  have hskip : skipBlank ⟨gap ++ rest, p⟩ = skipBlank ⟨rest, p + gap.length⟩ := by
    have htake : (gap ++ rest).takeWhile isBlank = gap ++ rest.takeWhile isBlank :=
      List.takeWhile_append_of_pos hgap
    simp only [skipBlank, drop, htake, List.length_append,
      List.drop_length_add_append, Nat.add_assoc]
  rw [List.length_append] at hfuel
  rw [← h fuel (by omega)]
  obtain ⟨fuel, rfl⟩ := Nat.exists_eq_add_one.2 (Nat.zero_lt_of_lt hfuel)
  simp only [tokens, next, hskip]

theorem space (h : Reads (p + 1) rest ts) : Reads p (' ' :: rest) ts := by
  have hspace : ∀ c ∈ [' '], isBlank c = true := fun _ hc => List.mem_singleton.1 hc ▸ rfl
  exact blank hspace h

theorem mark {k : TokenKind} {c : Char} (hk : (k, c) ∈ Scan.marks) (h : Reads (p + 1) rest ts) :
    Reads p (c :: rest) (⟨k, k.text, p, 1⟩ :: ts) := by
  obtain ⟨hscan, -, hblank⟩ := Scan.of_mark hk rest
  have hkind : k ≠ .eof := fun heof => Scan.ne_eof_of_cons (heof ▸ hscan)
  have hnil : ∀ c ∈ ([] : List Char), isBlank c = true := fun _ hc => absurd hc List.not_mem_nil
  exact lexeme (p := p) hnil (fun _ hc => by cases hc; exact hblank) hscan hkind Nat.one_pos h

theorem lexeme_append {tail : List Char} {kind : TokenKind} {value : String} {width : Nat}
    (hgap : ∀ c ∈ gap, isBlank c = true) (hhead : ∀ c ∈ tail.head?, isBlank c = false)
    (hne : tail ≠ []) (hscan : Scan.of tail = .lexeme kind value width) (hrest : Parted rest)
    (h : Reads (p + gap.length + width) (tail.drop width ++ rest) ts) :
    Reads p (gap ++ tail ++ rest) (⟨kind, value, p + gap.length, width⟩ :: ts) := by
  obtain ⟨c, cs, rfl⟩ := List.exists_cons_of_ne_nil hne
  have hkind : kind ≠ .eof := fun heof => Scan.ne_eof_of_cons (heof ▸ hscan)
  obtain ⟨hpos, hle, -⟩ := Scan.takes_of hscan hkind
  rw [← List.drop_append_of_le_length hle] at h
  rw [List.append_assoc]
  exact lexeme hgap hhead (Scan.of_append hne hscan hrest) hkind hpos h

theorem append (h : tokens fuel ⟨cs, q⟩ = .ok ts) (hfuel : cs.length < fuel)
    (hrest : Parted rest) (hus : Reads (p + (q + cs.length)) rest us) :
    Reads (p + q) (cs ++ rest) (ts.dropLast.map (·.moved p) ++ us) := by
  induction fuel generalizing q cs ts with
  | zero => exact absurd hfuel (Nat.not_lt_zero _)
  | succ fuel ih =>
    obtain ⟨gap, tail, rfl, hgap, hhead⟩ := exists_gap cs
    by_cases hne : tail = []
    · subst hne
      rw [List.append_nil] at h hus ⊢
      rw [tokens_blank q hgap] at h
      cases h
      exact blank hgap (by rwa [Nat.add_assoc])
    rcases hscan : Scan.of tail with ⟨kind, value, width⟩ | c | _
    · obtain ⟨c, tail', htail⟩ := List.exists_cons_of_ne_nil hne
      have hkind : kind ≠ .eof := fun heof => Scan.ne_eof_of_cons (htail ▸ heof ▸ hscan)
      obtain ⟨hpos, hle, -⟩ := Scan.takes_of hscan hkind
      rw [tokens_lexeme q hgap hhead hscan hkind] at h
      rcases hts : tokens fuel ⟨tail.drop width, q + gap.length + width⟩ with e | ts'
      · rw [hts] at h
        cases h
      · have hless : (tail.drop width).length < fuel := by
          rw [List.length_append] at hfuel
          rw [List.length_drop]
          omega
        have hplace : p + (q + (gap ++ tail).length) =
            p + (q + gap.length + width + (tail.drop width).length) := by
          rw [List.length_append, List.length_drop]
          omega
        have hmore := ih hts hless (hplace ▸ hus)
        obtain ⟨lexemes, rfl, -⟩ := (lexed_of_tokens hts hless).exists_lexemes
        simp only [hts, Except.map, Except.ok.injEq] at h
        subst h
        rw [List.dropLast_concat, ← Nat.add_assoc, ← Nat.add_assoc] at hmore
        rw [← List.cons_append, List.dropLast_concat, List.map_cons,
          List.cons_append, Token.moved, ← Nat.add_assoc]
        exact lexeme_append hgap hhead hne hscan hrest hmore
    · simp only [tokens, next, skipBlank_gap q hgap hhead, hscan] at h
      cases h
    · simp only [tokens, next, skipBlank_gap q hgap hhead, hscan] at h
      cases h

/-- The tokens of a text where it stands at some position, in front of a parting character. -/
theorem text {s : String} (h : tokenize s = .ok ts) (hrest : Parted rest)
    (hus : Reads (p + s.length) rest us) :
    Reads p (s.toList ++ rest) (ts.dropLast.map (·.moved p) ++ us) := by
  rw [← String.length_toList, ← Nat.zero_add s.toList.length] at hus
  exact append (p := p) (q := 0) h (Nat.lt_succ_self _) hrest hus

end Lexer.Reads

theorem tokenize_of_reads {s : String} {ts : List Token} (h : Lexer.Reads 0 s.toList ts) :
    tokenize s = .ok ts :=
  h _ (Nat.lt_succ_self _)

end DocSelect
