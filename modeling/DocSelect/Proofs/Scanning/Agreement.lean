import Mathlib.Data.List.Find
import DocSelect.Proofs.Scanning.Runs

/-!
# What a scanner answers

A scanner answers what `Scan.of` finds at the head of its characters. Where it looks one or two
characters ahead for an operator, `Scan.of` looks for the first text of a list that fits: the texts
with the same first character are the operators that the scanner chooses from, the longer before the
shorter. A cut takes no more than such a text, and the text stands there, so the input is always
long enough for it.
-/
namespace DocSelect

namespace Scanner

variable {s : Scanner} {c : Char}

-- ---------------------------------------------------------------------------
-- Answers
-- ---------------------------------------------------------------------------

def answer (s : Scanner) : Scan → Except LexError Token × Scanner
  | .lexeme kind value width => (.ok ⟨kind, value, s.position, width⟩, s.move width)
  | .unexpected c => (.error (.unexpected c s.position), s)
  | .unterminated =>
    (.error (.unterminated (s.position + s.rest.length)), s.move s.rest.length)

theorem next_lexer (s : Scanner) :
    s.lexer.next = (s.skipBlank.answer (Scan.of s.skipBlank.rest)).map id lexer := by
  unfold Lexer.next
  rw [← lexer_skipBlank]
  dsimp only [lexer]
  cases Scan.of s.skipBlank.rest with
  | lexeme kind value width => exact congrArg (Prod.mk _) (lexer_move _ _).symm
  | unexpected c => rfl
  | unterminated => exact congrArg (Prod.mk _) (lexer_move _ _).symm

theorem upTo_move (kind : TokenKind) (value : String) (s : Scanner) (n : Nat) :
    s.upTo kind value (s.move n) = s.answer (.lexeme kind value n) := by
  rw [upTo, answer, move, Nat.add_sub_cancel_left]

theorem closed_after (kind : TokenKind) (s : Scanner) (m : Nat) (hm : m ≤ s.rest.length)
    (found : Option (List Char × Nat)) :
    s.closed kind ((s.move m).after found) = s.answer (match found with
      | some (text, n) => .lexeme kind (String.ofList text) (n + m)
      | none => .unterminated) := by
  rcases found with _ | ⟨text, n⟩
  · simp only [after, closed, answer, move_move, rest_move, List.length_drop,
      Nat.add_sub_cancel' hm]
    rfl
  · simp only [after, closed, move_move, upTo_move, Nat.add_comm]

theorem symbol_eq {kind : TokenKind} (h : kind.text.toList <+: s.rest)
    (hpos : 0 < kind.text.length) :
    s.symbol kind kind.text.length = some (s.answer (.lexeme kind kind.text kind.text.length)) := by
  have hlength : kind.text.length ≤ s.input.length - s.position := by
    have hle := h.length_le
    rwa [rest, List.length_drop] at hle
  have htake : s.rest.take kind.text.length = kind.text.toList := take_of_begins h
  unfold symbol
  rw [if_pos (by omega)]
  simp only [answer]
  rw [← rest, htake, String.ofList_toList]

theorem word_eq (word : String) (n : Nat) :
    Scan.word word n = .lexeme (classify word).1 (classify word).2 n := by
  unfold Scan.word classify
  dsimp only
  split
  · rfl
  split
  · rfl
  · cases Keyword.ofText? word <;> rfl

-- ---------------------------------------------------------------------------
-- Punctuation
-- ---------------------------------------------------------------------------

def candidates (c : Char) : List TokenKind :=
  TokenKind.punctuation.filter fun k => k.text.toList.head? == some c

theorem candidates_of_punctuation? {single : TokenKind} {pairs : List (Char × TokenKind)}
    (h : punctuation? c = some (single, pairs)) : candidates c = pairs.map Prod.snd ++ [single] ∧
      single.text.toList = [c] ∧ ∀ pair ∈ pairs, pair.2.text.toList = [c, pair.1] := by
  unfold punctuation? at h
  split at h <;> cases h <;> decide

theorem candidates_of_doubled? {kind : TokenKind} (h : doubled? c = some kind) :
    candidates c = [kind] ∧ kind.text.toList = [c, c] := by
  unfold doubled? at h
  split at h <;> cases h <;> decide

theorem candidates_of_none (hdollar : c ≠ '$') (hdot : c ≠ '.')
    (hsingle : punctuation? c = none) (hdouble : doubled? c = none) : candidates c = [] := by
  have hheads : ∀ k ∈ TokenKind.punctuation, k.text.toList.head?.any (fun d =>
      d == '$' || d == '.' || (punctuation? d).isSome || (doubled? d).isSome) = true := by decide
  rw [candidates, List.filter_eq_nil_iff]
  intro k hk hhead
  have hany := hheads k hk
  rw [beq_iff_eq.1 hhead] at hany
  simp [hdollar, hdot, hsingle, hdouble] at hany

def fits (s : Scanner) (kind : TokenKind) : Bool := kind.text.toList.tail.isPrefixOf (s.move 1).rest

theorem fits_one {kind : TokenKind} (h : kind.text.toList = [c]) : s.fits kind = true := by
  rw [fits, h]
  rfl

theorem fits_two {kind : TokenKind} {d : Char} (h : kind.text.toList = [c, d]) :
    s.fits kind = (s.peek? 1 == some d) := by
  have hpeek : s.peek? 1 = (s.move 1).rest.head? := current?_eq (s.move 1)
  rw [fits, h, hpeek]
  cases (s.move 1).rest <;> simp [List.isPrefixOf, BEq.comm (a := d)]

theorem fits_three {kind : TokenKind} {d e : Char} (h : kind.text.toList = [c, d, e]) :
    s.fits kind = (s.peek? 1 == some d && s.peek? 2 == some e) := by
  have hpeek : s.peek? 1 = (s.move 1).rest[0]? := peek?_eq (s.move 1) 0
  have hpeek' : s.peek? 2 = (s.move 1).rest[1]? := by
    rw [← peek?_eq, peek?, peek?, move, Nat.add_assoc]
  rw [fits, h, hpeek, hpeek']
  rcases (s.move 1).rest with _ | ⟨_, _ | ⟨_, _⟩⟩ <;>
    simp [List.isPrefixOf, BEq.comm (a := d), BEq.comm (a := e)]

def beginsLiteral (c : Char) : Bool :=
  c == '"' || c == '\'' || c == 'r' || c.isDigit || Scan.isNameStart c

theorem beginsLiteral_of_punctuation? (h : punctuation? c ≠ none) : beginsLiteral c = false := by
  unfold punctuation? at h
  split at h <;> first | decide | contradiction

theorem beginsLiteral_of_doubled? (h : doubled? c ≠ none) : beginsLiteral c = false := by
  unfold doubled? at h
  split at h <;> first | decide | contradiction

/-- Where no literal begins and no variable, the first of the punctuation that fits stands there. -/
theorem of_punctuation (h : s.current? = some c) (hc : beginsLiteral c = false)
    (hvar : ¬ (c = '$' ∧ (s.peek? 1).any Scan.isNameStart = true)) :
    Scan.of s.rest = ((candidates c).find? s.fits).elim (.unexpected c)
      fun k => .lexeme k k.text k.text.length := by
  have hrest := rest_of_current? h
  have hfind : TokenKind.punctuation.find?
      (fun k => k.text.toList.isPrefixOf (c :: (s.move 1).rest)) =
      (candidates c).find? s.fits := by
    rw [candidates, List.find?_filter]
    refine List.find?_congr fun k hk => ?_
    obtain ⟨d, ds, hk⟩ := List.exists_cons_of_length_pos (Scan.text_of_punctuation k hk).2
    rw [Bool.eq_iff_iff]
    simp [fits, hk, List.cons_prefix_cons]
  simp only [beginsLiteral, Bool.or_eq_false_iff, beq_eq_false_iff_ne] at hc
  obtain ⟨⟨⟨⟨hdouble, hsingle⟩, hregex⟩, hdigit⟩, hname⟩ := hc
  rw [any_peek?_one hrest] at hvar
  rw [hrest, Scan.of.eq_def]
  simp only [hvar, hdouble, hsingle, hregex, hdigit, hname, or_self, false_and, if_false,
    Bool.false_eq_true, Scan.punctuation, hfind]
  cases (candidates c).find? s.fits <;> rfl

theorem symbol_of_candidates {kind : TokenKind} {width : Nat} (h : s.current? = some c)
    (hc : beginsLiteral c = false) (hvar : ¬ (c = '$' ∧ (s.peek? 1).any Scan.isNameStart = true))
    (hfind : (candidates c).find? s.fits = some kind) (hwidth : kind.text.length = width) :
    s.symbol kind width = some (s.answer (Scan.of s.rest)) := by
  obtain ⟨hmem, hhead⟩ := List.mem_filter.1 (List.mem_of_find?_eq_some hfind)
  obtain ⟨ds, htext⟩ := List.head?_eq_some_iff.1 (beq_iff_eq.1 hhead)
  have hfits : s.fits kind = true := List.find?_some hfind
  have htail := List.isPrefixOf_iff_prefix.1 hfits
  rw [htext, List.tail_cons] at htail
  have hprefix : kind.text.toList <+: s.rest := by
    rw [htext, rest_of_current? h]
    exact (List.prefix_cons_inj c).2 htail
  rw [of_punctuation h hc hvar, hfind, ← hwidth]
  exact symbol_eq hprefix (Scan.text_of_punctuation kind hmem).2

theorem dollar_eq (h : s.current? = some '$') : s.dollar = some (s.answer (Scan.of s.rest)) := by
  unfold dollar
  split
  · rename_i hname
    have hrest := rest_of_current? h
    rw [any_peek?_one hrest] at hname
    rw [hrest, Scan.of.eq_def]
    simp only [hname, and_self, if_true, span_eq, move_move, upTo_move, Nat.add_comm]
  · rename_i hname
    exact symbol_of_candidates h (by decide) (fun h => hname h.2) rfl rfl

theorem dots_eq (h : s.current? = some '.') : s.dots = some (s.answer (Scan.of s.rest)) := by
  have hcut {kind : TokenKind} {width : Nat} : (candidates '.').find? s.fits = some kind →
      kind.text.length = width → s.symbol kind width = some (s.answer (Scan.of s.rest)) :=
    symbol_of_candidates h (by decide) fun h => absurd h.1 (by decide)
  have hlist : candidates '.' = [.ellipsis, .descent, .dot] := by decide
  have hdot : s.fits .dot = true := fits_one (c := '.') rfl
  have hdescent : s.fits .descent = (s.peek? 1 == some '.') := fits_two (c := '.') rfl
  have hellipsis : s.fits .ellipsis = (s.peek? 1 == some '.' && s.peek? 2 == some '.') :=
    fits_three (c := '.') rfl
  unfold dots
  split
  · rename_i hdots
    exact hcut (by simp [hlist, hellipsis, hdots]) rfl
  split
  · rename_i hdots hone
    have htwo : s.peek? 2 ≠ some '.' := fun htwo => hdots ⟨hone, htwo⟩
    exact hcut (by simp [hlist, hellipsis, hdescent, hone, htwo]) rfl
  · rename_i hone
    exact hcut (by simp [hlist, hellipsis, hdescent, hdot, hone]) rfl

theorem oneOrTwo_eq {single : TokenKind} {pairs : List (Char × TokenKind)}
    (h : s.current? = some c) (hc : punctuation? c = some (single, pairs)) :
    s.oneOrTwo single pairs = some (s.answer (Scan.of s.rest)) := by
  obtain ⟨hlist, hsingle, hpairs⟩ := candidates_of_punctuation? hc
  have hcut {kind : TokenKind} {width : Nat} : (candidates c).find? s.fits = some kind →
      kind.text.length = width → s.symbol kind width = some (s.answer (Scan.of s.rest)) :=
    symbol_of_candidates h (beginsLiteral_of_punctuation?
      (Option.ne_none_iff_exists'.2 ⟨_, hc⟩)) (by rintro ⟨rfl, -⟩; cases hc)
  have hfind : (candidates c).find? s.fits =
      (((pairs.find? fun pair => s.peek? 1 == some pair.1).map Prod.snd).or (some single)) := by
    rw [hlist, List.find?_append, List.find?_map, List.find?_cons_of_pos (fits_one hsingle)]
    exact congrArg (fun found => (Option.map Prod.snd found).or (some single))
      (List.find?_congr fun pair hpair => fits_two (hpairs pair hpair))
  unfold oneOrTwo
  split
  · rename_i d kind hfound
    rw [hfound] at hfind
    have htext := hpairs _ (List.mem_of_find?_eq_some hfound)
    exact hcut hfind (congrArg List.length htext)
  · rename_i hfound
    rw [hfound] at hfind
    exact hcut hfind (congrArg List.length hsingle)

theorem doubled_eq {kind : TokenKind} (h : s.current? = some c) (hc : doubled? c = some kind)
    (hpeek : (s.peek? 1 == some c) = true) :
    s.symbol kind 2 = some (s.answer (Scan.of s.rest)) := by
  obtain ⟨hlist, htext⟩ := candidates_of_doubled? hc
  refine symbol_of_candidates h
    (beginsLiteral_of_doubled? (Option.ne_none_iff_exists'.2 ⟨_, hc⟩))
    (by rintro ⟨rfl, -⟩; cases hc) ?_ (congrArg List.length htext)
  rw [hlist, List.find?_cons_of_pos (fits_two htext ▸ hpeek)]

/-- A character by itself that is an operator only twice, or none at all, is no punctuation. -/
theorem find?_candidates (hdollar : c ≠ '$') (hdot : c ≠ '.') (hsingle : punctuation? c = none)
    (hdouble : doubled? c ≠ none → s.peek? 1 ≠ some c) :
    (candidates c).find? s.fits = none := by
  cases hkind : doubled? c with
  | none => rw [candidates_of_none hdollar hdot hsingle hkind, List.find?_nil]
  | some kind =>
    obtain ⟨hlist, htext⟩ := candidates_of_doubled? hkind
    have hpeek := hdouble (by rw [hkind]; exact Option.some_ne_none kind)
    rw [hlist, List.find?_singleton, fits_two htext, if_neg (by simpa using hpeek)]

theorem literal_eq (h : s.current? = some c) (hdollar : c ≠ '$') (hdot : c ≠ '.')
    (hsingle : punctuation? c = none) (hdouble : doubled? c ≠ none → s.peek? 1 ≠ some c) :
    s.literal c = s.answer (Scan.of s.rest) := by
  have hrest := rest_of_current? h
  have hlength : s.rest.length = (s.move 1).rest.length + 1 := congrArg List.length hrest
  by_cases hc : beginsLiteral c = true
  · have hpeek : s.peek? 1 = (s.move 1).rest.head? := current?_eq (s.move 1)
    unfold literal
    rw [hrest, Scan.of.eq_def]
    simp only [hdollar, false_and, if_false, ← hpeek]
    split
    · rw [quoted_eq]
      refine (closed_after .string s 1 (by omega) _).trans ?_
      cases Scan.quoted c (s.move 1).rest <;> rfl
    split
    · rename_i hregex
      have htwo : 2 ≤ s.rest.length := (List.getElem?_eq_some_iff.1 (peek?_eq s 1 ▸ hregex.2)).1
      have hmove : (s.move 1).rest.drop 1 = (s.move 2).rest := by rw [← rest_move, move_move]
      rw [pattern_eq, hmove]
      refine (closed_after .regex s 2 htwo _).trans ?_
      cases Scan.pattern (s.move 2).rest <;> rfl
    split
    · rw [number_eq, ← hrest, upTo_move]
    split
    · rw [span_eq, ← hrest, upTo_move, word_eq]
    · rename_i hquote hregex hdigit hname
      have hr : c ≠ 'r' := by
        rintro rfl
        exact hname (by decide)
      simp only [not_or] at hquote
      simp [beginsLiteral, hquote, hr, hdigit, hname] at hc
  · have hc' := Bool.eq_false_iff.2 hc
    rw [of_punctuation h hc' (fun h => hdollar h.1), find?_candidates hdollar hdot hsingle hdouble]
    simp only [beginsLiteral, Bool.or_eq_false_iff, beq_eq_false_iff_ne] at hc'
    obtain ⟨⟨⟨⟨hdouble, hsingle⟩, hregex⟩, hdigit⟩, hname⟩ := hc'
    simp [literal, hdouble, hsingle, hregex, hdigit, hname, answer]

/-- A scanner answers what stands after the white space. No cut is outside of the input. -/
theorem next_eq (s : Scanner) : s.next = some (s.skipBlank.answer (Scan.of s.skipBlank.rest)) := by
  unfold next
  dsimp only
  split
  · rename_i h
    rw [rest_of_current?_none h]
    rfl
  rename_i c h
  split
  · rename_i hc
    exact dollar_eq (hc ▸ h)
  split
  · rename_i hc
    exact dots_eq (hc ▸ h)
  rename_i hdollar hdot
  split
  · rename_i hc
    exact oneOrTwo_eq h hc
  rename_i hsingle
  split
  · rename_i hdouble hpeek
    exact doubled_eq h hdouble hpeek
  · rename_i hdouble
    refine congrArg some (literal_eq h hdollar hdot hsingle fun hsome hpeek => ?_)
    obtain ⟨kind, hkind⟩ := Option.ne_none_iff_exists'.1 hsome
    exact hdouble kind hkind (beq_iff_eq.2 hpeek)

end Scanner

end DocSelect
