import DocSelect.Token.Lexer
import Mathlib.Data.List.TakeWhile

/-!
# Lexemes on their own

How many characters a token takes is decided by looking ahead: at the character after a name, at a
point and an `f` after digits, at the longer operators. What was taken is the same token again where
the text ends after it or a space follows.
-/
namespace DocSelect

def Stops (rest : List Char) : Prop := ∀ c ∈ rest.head?, c = ' '

theorem Stops.nil : Stops [] := fun _ h => by cases h

theorem Stops.space (cs : List Char) : Stops (' ' :: cs) := fun _ h => by cases h; rfl

theorem look_iff {p : Char → Bool} {cs : List Char} :
    (cs.head?.map p).getD false = true ↔ ∃ c ∈ cs.head?, p c = true := by
  cases cs <;> simp

/-- Where a text is cut short, its next character is the one it had, or the space after the cut. -/
theorem Stops.head_cut {rest : List Char} (h : Stops rest) (n : Nat) (cs : List Char) :
    ∀ c ∈ (cs.take n ++ rest).head?, c ∈ cs.head? ∨ c = ' ' := by
  intro c hc
  cases n with
  | zero => exact .inr (h c hc)
  | succ n =>
    cases cs with
    | nil => exact .inr (h c hc)
    | cons d cs => exact .inl hc

theorem takeWhile_append_of_head_not {p : Char → Bool} (cs : List Char) {rest : List Char}
    (hrest : ∀ c ∈ rest.head?, p c = false) : (cs ++ rest).takeWhile p = cs.takeWhile p := by
  induction cs with
  | nil =>
    cases rest with
    | nil => rfl
    | cons c rest => simp [hrest c rfl]
  | cons c cs ih => simp [List.takeWhile_cons, ih]

theorem takeWhile_append_of_stop {p : Char → Bool} {cs rest : List Char}
    (hcs : ∀ c ∈ cs, p c = true) (hrest : ∀ c ∈ rest.head?, p c = false) :
    (cs ++ rest).takeWhile p = cs :=
  (takeWhile_append_of_head_not cs hrest).trans (List.takeWhile_eq_self_iff.2 hcs)

theorem takeWhile_takeWhile_append {p : Char → Bool} (cs : List Char) {rest : List Char}
    (hrest : ∀ c ∈ rest.head?, p c = false) :
    (cs.takeWhile p ++ rest).takeWhile p = cs.takeWhile p :=
  takeWhile_append_of_stop (fun _ => List.mem_takeWhile_imp) hrest

theorem take_of_begins {cs ds : List Char} (h : ds <+: cs) : cs.take ds.length = ds :=
  (List.prefix_iff_eq_take.1 h).symm

theorem begins_append_of_drop {as bs cs : List Char} (ha : as <+: cs)
    (hb : bs <+: cs.drop as.length) : as ++ bs <+: cs := by
  obtain ⟨ds, rfl⟩ := ha
  rw [List.drop_left] at hb
  exact (List.prefix_append_right_inj as).2 hb

namespace Scan

/-- The characters that a token takes from the head of a text: one at least, and they are the token
again where the text stops after them. -/
structure Takes (cs : List Char) (kind : TokenKind) (value : String) (width : Nat) : Prop where
  pos : 0 < width
  le : width ≤ cs.length
  again {rest : List Char} : Stops rest → of (cs.take width ++ rest) = lexeme kind value width

theorem isNameChar_of_isNameStart {c : Char} (h : isNameStart c = true) : isNameChar c = true := by
  unfold isNameStart at h
  unfold isNameChar isAlphanumeric
  grind

-- ---------------------------------------------------------------------------
-- Quotes and patterns
-- ---------------------------------------------------------------------------

theorem quoted_again {quote : Char} {cs text : List Char} {n : Nat}
    (h : quoted quote cs = some (text, n)) :
    n ≤ cs.length ∧ ∀ rest, quoted quote (cs.take n ++ rest) = some (text, n) := by
  fun_induction quoted quote cs generalizing text n with
  | case1 => cases h
  | case2 cs =>
    cases h
    refine ⟨Nat.succ_pos _, fun rest => ?_⟩
    rw [List.take_succ_cons, List.cons_append, quoted.eq_def]
    exact if_pos rfl
  | case3 => cases h
  | case4 escaped cs hq ih =>
    obtain ⟨⟨text, n⟩, htail, h⟩ := Option.map_eq_some_iff.1 h
    cases h
    obtain ⟨hle, hagain⟩ := ih htail
    refine ⟨by simpa using hle, fun rest => ?_⟩
    rw [List.take_succ_cons, List.take_succ_cons, List.cons_append, List.cons_append,
      quoted, if_neg hq, if_pos rfl, hagain rest]
    rfl
  | case5 c cs hq hb ih =>
    obtain ⟨⟨text, n⟩, htail, h⟩ := Option.map_eq_some_iff.1 h
    cases h
    obtain ⟨hle, hagain⟩ := ih htail
    refine ⟨by simpa using hle, fun rest => ?_⟩
    rw [List.take_succ_cons, List.cons_append, quoted.eq_def]
    simp [hq, hb, hagain rest]

theorem pattern_again {cs text : List Char} {n : Nat} (h : pattern cs = some (text, n)) :
    0 < n ∧ n ≤ cs.length ∧ ∀ rest, pattern (cs.take n ++ rest) = some (text, n) := by
  fun_induction pattern cs generalizing text n with
  | case1 => cases h
  | case2 cs =>
    cases h
    exact ⟨Nat.one_pos, Nat.succ_pos _, fun rest => by simp [pattern]⟩
  | case3 cs ih =>
    obtain ⟨⟨text, n⟩, htail, h⟩ := Option.map_eq_some_iff.1 h
    cases h
    obtain ⟨-, hle, hagain⟩ := ih htail
    exact ⟨Nat.succ_pos _, by simpa using hle, fun rest => by simp [pattern, hagain rest]⟩
  | case4 c cs hslash hescape ih =>
    obtain ⟨⟨text, n⟩, htail, h⟩ := Option.map_eq_some_iff.1 h
    cases h
    obtain ⟨hpos, hle, hagain⟩ := ih htail
    refine ⟨Nat.succ_pos _, by simpa using hle, fun rest => ?_⟩
    rw [List.take_succ_cons, List.cons_append, pattern, hagain rest]
    · rfl
    · exact hslash
    · -- the character after a backslash is the one it was
      intro cs' hc heq
      obtain ⟨d, ds, rfl⟩ := List.exists_cons_of_length_pos (hpos.trans_le hle)
      obtain ⟨n, rfl⟩ := Nat.exists_eq_add_one.2 hpos
      obtain ⟨rfl, -⟩ := List.cons.inj heq
      exact hescape ds hc rfl

-- ---------------------------------------------------------------------------
-- Numbers
-- ---------------------------------------------------------------------------

theorem fraction_begins (cs : List Char) : fraction cs <+: cs := by
  unfold fraction
  split
  · split
    · exact (List.prefix_cons_inj _).2 (List.takeWhile_prefix _)
    · exact List.nil_prefix
  · exact List.nil_prefix

theorem floatMark_begins (cs : List Char) : floatMark cs <+: cs := by
  unfold floatMark
  split
  · split
    · exact List.nil_prefix
    · exact (List.prefix_cons_inj _).2 List.nil_prefix
  · exact List.nil_prefix

theorem number_begins (cs : List Char) : number cs <+: cs :=
  begins_append_of_drop (begins_append_of_drop (List.takeWhile_prefix _) (fraction_begins _))
    (floatMark_begins _)

def EndsDigits (rest : List Char) : Prop := ∀ c ∈ rest.head?, c.isDigit = false ∧ c ≠ '.'

theorem fraction_shape (cs : List Char) :
    fraction cs = [] ∨ ∃ d ds, fraction cs = '.' :: d :: ds ∧
    ∀ c ∈ d :: ds, c.isDigit = true := by
  unfold fraction
  split
  · rename_i cs
    split
    · rename_i hdigit
      obtain ⟨d, hd, hdigit⟩ := look_iff.1 hdigit
      obtain ⟨ds, rfl⟩ := List.head?_eq_some_iff.1 hd
      refine .inr ⟨d, ds.takeWhile Char.isDigit,
        congrArg _ (List.takeWhile_cons_of_pos hdigit), ?_⟩
      exact List.forall_mem_cons.2 ⟨hdigit, fun _ => List.mem_takeWhile_imp⟩
    · exact .inl rfl
  · exact .inl rfl

theorem fraction_again (cs : List Char) {rest : List Char} (hrest : EndsDigits rest) :
    fraction (fraction cs ++ rest) = fraction cs := by
  rcases fraction_shape cs with h | ⟨d, ds, h, hdigits⟩
  · rw [h, List.nil_append]
    unfold fraction
    split
    · exact absurd rfl (hrest '.' rfl).2
    · rfl
  · have hd := hdigits d List.mem_cons_self
    have hagain := takeWhile_append_of_stop hdigits fun c hc => (hrest c hc).1
    rw [List.cons_append] at hagain
    rw [h, List.cons_append, List.cons_append]
    simp only [fraction, List.head?_cons, Option.map_some, Option.getD_some, hd, if_true, hagain]

theorem floatMark_shape (cs : List Char) : floatMark cs = [] ∨ floatMark cs = ['f'] := by
  unfold floatMark
  split
  · split <;> simp
  · exact .inl rfl

theorem floatMark_again (cs : List Char) {rest : List Char} (hrest : Stops rest) :
    floatMark (floatMark cs ++ rest) = floatMark cs := by
  rcases floatMark_shape cs with h | h <;> rw [h]
  · rw [List.nil_append]
    unfold floatMark
    split
    · exact absurd (hrest 'f' rfl) (by decide)
    · rfl
  · have hname : (rest.head?.map isNameChar).getD false = false := by
      rw [Bool.eq_false_iff, Ne, look_iff]
      rintro ⟨c, hc, hname⟩
      obtain rfl := hrest c hc
      exact absurd hname (by decide)
    simp [floatMark, hname]

theorem endsDigits_floatMark (cs : List Char) {rest : List Char} (hrest : Stops rest) :
    EndsDigits (floatMark cs ++ rest) := by
  intro c hc
  rcases floatMark_shape cs with h | h <;> rw [h] at hc
  · obtain rfl := hrest c hc
    decide
  · obtain rfl := Option.some.inj hc
    decide

theorem number_again {whole : List Char} (hwhole : ∀ c ∈ whole, c.isDigit = true)
    (cs ds : List Char) {rest : List Char} (hrest : Stops rest) :
    number (whole ++ fraction cs ++ floatMark ds ++ rest) = whole ++ fraction cs ++
      floatMark ds := by
  have hmark := endsDigits_floatMark ds hrest
  have hpoint : ∀ c ∈ (fraction cs ++ (floatMark ds ++ rest)).head?, c.isDigit = false := by
    intro c hc
    rcases fraction_shape cs with h | ⟨d, ds', h, -⟩ <;> rw [h] at hc
    · exact (hmark c hc).1
    · obtain rfl := Option.some.inj hc
      decide
  have htake := takeWhile_append_of_stop hwhole hpoint
  have hdrop : (whole ++ fraction cs ++ floatMark ds ++ rest).drop (whole ++ fraction cs).length =
      floatMark ds ++ rest := by
    rw [List.append_assoc _ _ rest]
    exact List.drop_left
  have hparts : whole ++ fraction cs ++ floatMark ds ++ rest =
      whole ++ (fraction cs ++ (floatMark ds ++ rest)) := by simp only [List.append_assoc]
  unfold number
  rw [hparts, htake]
  dsimp only
  rw [List.drop_left, fraction_again cs hmark, ← hparts, hdrop, floatMark_again ds hrest]

-- ---------------------------------------------------------------------------
-- Every lexeme
-- ---------------------------------------------------------------------------

section

variable {c : Char} {cs : List Char} {kind : TokenKind} {value : String} {width : Nat}

/-- What is looked for in the next character, and is no space, is not found after a cut if it was
not there before. -/
theorem not_look_cut {p : Char → Bool} (hp : p ' ' = false)
    (h : ¬ (cs.head?.map p).getD false = true) (n : Nat) {rest : List Char} (hrest : Stops rest) :
    ¬ ((cs.take n ++ rest).head?.map p).getD false = true := by
  rw [look_iff] at h ⊢
  rintro ⟨d, hd, hpd⟩
  rcases hrest.head_cut n cs d hd with hd | rfl
  · exact h ⟨d, hd, hpd⟩
  · rw [hp] at hpd
    cases hpd

theorem takes_var (hc : c = '$' ∧ (cs.head?.map isNameStart).getD false = true) :
    Takes (c :: cs) .var (String.ofList (cs.takeWhile isNameChar))
      ((cs.takeWhile isNameChar).length + 1) := by
  obtain ⟨rfl, hstart⟩ := hc
  refine ⟨Nat.succ_pos _, Nat.succ_le_succ (List.takeWhile_prefix _).length_le,
    fun {rest} hrest => ?_⟩
  obtain ⟨d, hd, hdstart⟩ := look_iff.1 hstart
  obtain ⟨ds, rfl⟩ := List.head?_eq_some_iff.1 hd
  have hstop : ∀ c ∈ rest.head?, isNameChar c = false := fun c hc => by
    obtain rfl := hrest c hc
    decide
  have hname := takeWhile_takeWhile_append (d :: ds) hstop
  rw [List.take_succ_cons, take_of_begins (List.takeWhile_prefix _), List.cons_append, of.eq_def]
  have hhead : (((d :: ds).takeWhile isNameChar ++ rest).head?.map isNameStart).getD false =
      true := by
    rw [List.takeWhile_cons_of_pos (isNameChar_of_isNameStart hdstart)]
    exact hdstart
  simp only [hhead, hname, and_self, if_true]

theorem takes_quoted {text : List Char} {n : Nat} (hc : c = '"' ∨ c = '\'')
    (h : quoted c cs = some (text, n)) : Takes (c :: cs) .string (String.ofList text) (n + 1) := by
  obtain ⟨hle, hagain⟩ := quoted_again h
  refine ⟨Nat.succ_pos _, Nat.succ_le_succ hle, fun {rest} _ => ?_⟩
  have hvar : ¬ c = '$' := by rcases hc with rfl | rfl <;> decide
  rw [List.take_succ_cons, List.cons_append, of.eq_def]
  simp only [hvar, hc, hagain rest, false_and, if_false, if_true]

theorem takes_pattern {text : List Char} {n : Nat} (hc : c = 'r' ∧ cs.head? = some '/')
    (h : pattern (cs.drop 1) = some (text, n)) :
    Takes (c :: cs) .regex (String.ofList text) (n + 2) := by
  obtain ⟨rfl, hslash⟩ := hc
  obtain ⟨cs, rfl⟩ := List.head?_eq_some_iff.1 hslash
  obtain ⟨-, hle, hagain⟩ := pattern_again h
  refine ⟨Nat.succ_pos _, Nat.succ_le_succ (Nat.succ_le_succ hle), fun {rest} _ => ?_⟩
  have hrest : pattern (cs.take n ++ rest) = some (text, n) := hagain rest
  rw [List.take_succ_cons, List.take_succ_cons, List.cons_append, List.cons_append, of.eq_def]
  simp [hrest]

theorem takes_number (hc : c.isDigit = true) :
    Takes (c :: cs) .number (String.ofList (number (c :: cs))) (number (c :: cs)).length := by
  have hne : ∃ ds, number (c :: cs) = c :: ds := by
    unfold number
    rw [List.takeWhile_cons_of_pos hc]
    exact ⟨_, rfl⟩
  refine ⟨?_, (number_begins _).length_le, fun {rest} hrest => ?_⟩
  · obtain ⟨ds, h⟩ := hne
    simp [h]
  · have hagain : number (number (c :: cs) ++ rest) = number (c :: cs) :=
      number_again (fun _ => List.mem_takeWhile_imp) _ _ hrest
    rw [take_of_begins (number_begins _)]
    obtain ⟨ds, h⟩ := hne
    rw [h, List.cons_append] at hagain ⊢
    have hvar : ¬ c = '$' := by rintro rfl; exact absurd hc (by decide)
    have hquote : ¬ (c = '"' ∨ c = '\'') := by rintro (rfl | rfl) <;> exact absurd hc (by decide)
    have hregex : ¬ c = 'r' := by rintro rfl; exact absurd hc (by decide)
    rw [of.eq_def]
    simp only [hvar, hquote, hregex, hc, hagain, false_and, if_false, if_true]

theorem width_of_word {text : String} {n : Nat} (h : word text n = lexeme kind value width) :
    width = n := by
  unfold word at h
  dsimp only at h
  repeat' split at h
  all_goals cases h; rfl

theorem takes_word (hregex : ¬ (c = 'r' ∧ cs.head? = some '/')) (hdigit : ¬ c.isDigit = true)
    (hc : isNameStart c = true)
    (h : word (String.ofList ((c :: cs).takeWhile isNameChar))
      ((c :: cs).takeWhile isNameChar).length =
      lexeme kind value width) : Takes (c :: cs) kind value width := by
  obtain rfl := width_of_word h
  have hname : (c :: cs).takeWhile isNameChar = c :: cs.takeWhile isNameChar :=
    List.takeWhile_cons_of_pos (isNameChar_of_isNameStart hc)
  refine ⟨by simp [hname], (List.takeWhile_prefix _).length_le, fun {rest} hrest => ?_⟩
  have hstop : ∀ c ∈ rest.head?, isNameChar c = false := fun c hc => by
    obtain rfl := hrest c hc
    decide
  have hagain := takeWhile_takeWhile_append (c :: cs) hstop
  rw [take_of_begins (List.takeWhile_prefix _), ← h]
  rw [hname, List.cons_append] at hagain ⊢
  have hvar : ¬ c = '$' := by rintro rfl; exact absurd hc (by decide)
  have hquote : ¬ (c = '"' ∨ c = '\'') := by rintro (rfl | rfl) <;> exact absurd hc (by decide)
  have hslash : ¬ (c = 'r' ∧ (cs.takeWhile isNameChar ++ rest).head? = some '/') := by
    rintro ⟨rfl, hslash⟩
    rw [← take_of_begins (List.takeWhile_prefix (p := isNameChar) (l := cs))] at hslash
    rcases hrest.head_cut _ cs '/' hslash with h | h
    · exact hregex ⟨rfl, h⟩
    · exact absurd h (by decide)
  rw [of.eq_def]
  simp only [hvar, hquote, hslash, Bool.eq_false_iff.2 hdigit, hc, hagain, false_and,
    if_false, if_true, Bool.false_eq_true]

theorem prefix_of_prefix_append {as bs rest : List Char} (h : as <+: bs ++ rest)
    (hrest : Stops rest) (has : ' ' ∉ as) : as <+: bs := by
  rcases List.prefix_or_prefix_of_prefix h (List.prefix_append bs rest) with h' | ⟨ds, rfl⟩
  · exact h'
  · cases ds with
    | nil => exact (List.append_nil bs).symm ▸ List.prefix_refl bs
    | cons d ds =>
      obtain ⟨es, rfl⟩ := (List.prefix_append_right_inj bs).1 h
      obtain rfl := hrest d rfl
      exact absurd (List.mem_append_right bs List.mem_cons_self) has

theorem text_of_punctuation :
    ∀ k ∈ TokenKind.punctuation, ' ' ∉ k.text.toList ∧ 0 < k.text.toList.length := by
  decide

/-- An operator is the longest one that fits, also before a space: no operator has one in it. -/
theorem takes_punctuation (hvar : ¬ (c = '$' ∧ (cs.head?.map isNameStart).getD false = true))
    (hquote : ¬ (c = '"' ∨ c = '\'')) (hregex : ¬ (c = 'r' ∧ cs.head? = some '/'))
    (hdigit : ¬ c.isDigit = true) (hc : ¬ isNameStart c = true)
    (h : punctuation c cs = lexeme kind value width) : Takes (c :: cs) kind value width := by
  unfold punctuation at h
  split at h
  · rename_i k hfind
    cases h
    obtain ⟨hfits, as, bs, hlist, hbefore⟩ := List.find?_eq_some_iff_append.1 hfind
    have hk : kind ∈ TokenKind.punctuation := List.mem_of_find?_eq_some hfind
    have hprefix : kind.text.toList <+: c :: cs := List.isPrefixOf_iff_prefix.1 hfits
    have hpos := (text_of_punctuation kind hk).2
    refine ⟨hpos, hprefix.length_le, fun {rest} hrest => ?_⟩
    have htake : (c :: cs).take kind.text.length = kind.text.toList := take_of_begins hprefix
    have hcut : (c :: cs).take kind.text.length = c :: cs.take (kind.text.length - 1) := by
      obtain ⟨n, hn⟩ := Nat.exists_eq_add_one.2 (show 0 < kind.text.length from hpos)
      rw [hn]
      rfl
    have hagain : TokenKind.punctuation.find? (fun k' => k'.text.toList.isPrefixOf
        (c :: (cs.take (kind.text.length - 1) ++ rest))) = some kind := by
      rw [← List.cons_append, ← hcut, htake]
      refine List.find?_eq_some_iff_append.2 ⟨?_, as, bs, hlist, fun k' hk' => ?_⟩
      · exact List.isPrefixOf_iff_prefix.2 (List.prefix_append _ _)
      · have hno := hbefore k' hk'
        rw [Bool.not_eq_true', Bool.eq_false_iff, Ne, List.isPrefixOf_iff_prefix] at hno ⊢
        have hmem : k' ∈ TokenKind.punctuation := by
          rw [hlist]
          exact List.mem_append_left _ hk'
        have hnospace := (text_of_punctuation k' hmem).1
        exact fun hk' => hno ((prefix_of_prefix_append hk' hrest hnospace).trans hprefix)
    have hvar' : ¬ (c = '$' ∧
        ((cs.take (kind.text.length - 1) ++ rest).head?.map isNameStart).getD false = true) :=
      fun h => not_look_cut (by decide) (fun hl => hvar ⟨h.1, hl⟩) _ hrest h.2
    have hslash : ¬ (c = 'r' ∧ (cs.take (kind.text.length - 1) ++ rest).head? = some '/') := by
      rintro ⟨rfl, -⟩
      exact hc (by decide)
    rw [hcut, List.cons_append, of.eq_def]
    simp only [hvar', hquote, hslash, Bool.eq_false_iff.2 hdigit, Bool.eq_false_iff.2 hc, if_false,
      Bool.false_eq_true, punctuation, hagain]
  · cases h

theorem takes_of {cs : List Char} (h : of cs = lexeme kind value width) (hkind : kind ≠ .eof) :
    Takes cs kind value width := by
  cases cs with
  | nil =>
    cases h
    exact absurd rfl hkind
  | cons c cs =>
    rw [of.eq_def] at h
    dsimp only at h
    split at h
    · rename_i hvar
      cases h
      exact takes_var hvar
    · rename_i hvar
      split at h
      · rename_i hquote
        split at h
        · rename_i hquoted
          cases h
          exact takes_quoted hquote hquoted
        · cases h
      · rename_i hquote
        split at h
        · rename_i hregex
          split at h
          · rename_i hpattern
            cases h
            exact takes_pattern hregex hpattern
          · cases h
        · rename_i hregex
          split at h
          · rename_i hdigit
            cases h
            exact takes_number hdigit
          · rename_i hdigit
            split at h
            · rename_i hstart
              exact takes_word hregex hdigit hstart h
            · rename_i hstart
              exact takes_punctuation hvar hquote hregex hdigit hstart h

end

end Scan

end DocSelect
