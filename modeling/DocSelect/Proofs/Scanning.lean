import DocSelect.Proofs.Scanning.Agreement
import DocSelect.Proofs.Tokens

/-!
# Calls in a row

A scanner goes forward and stays inside of its input, whatever its calls answer. A token is an
advance. A character that begins no token is in the way of every later call, and behind a text that
was not closed there is nothing but the end of the input.
-/
namespace DocSelect

/-- The outcomes of so many calls in a row, and the lexer after them. -/
def Lexer.calls : Nat → Lexer → List (Except LexError Token) × Lexer
  | 0, l => ([], l)
  | n + 1, l =>
    let (outcome, l) := l.next
    let (outcomes, l) := calls n l
    (outcome :: outcomes, l)

theorem Lexed.length_le {p : Nat} {cs : List Char} {ts : List Token} (h : Lexed p cs ts) :
    ts.length ≤ cs.length + 1 := by
  induction h with
  | blank => simp
  | token _ htext _ ih =>
    have hpos := htext.pos
    simp only [List.length_cons, List.length_append]
    omega

namespace Scanner

variable {s s' : Scanner} {outcome : Except LexError Token}

def Inside (s : Scanner) : Prop := s.position ≤ s.input.length

theorem inside_ofText (text : String) : (ofText text).Inside := Nat.zero_le _

theorem length_rest (s : Scanner) : s.rest.length = s.input.length - s.position := List.length_drop

theorem Inside.move {n : Nat} (hs : s.Inside) (hn : n ≤ s.rest.length) : (s.move n).Inside := by
  rw [length_rest] at hn
  unfold Inside at hs ⊢
  simp only [Scanner.move]
  omega

-- ---------------------------------------------------------------------------
-- White space
-- ---------------------------------------------------------------------------

theorem skipBlank_eq (s : Scanner) : s.skipBlank = s.move (s.rest.takeWhile isBlank).length := by
  rw [skipBlank, span_eq]

theorem input_skipBlank (s : Scanner) : s.skipBlank.input = s.input := by
  rw [skipBlank_eq]
  rfl

theorem position_le_skipBlank (s : Scanner) : s.position ≤ s.skipBlank.position := by
  rw [skipBlank_eq]
  exact Nat.le_add_right _ _

theorem Inside.skipBlank (hs : s.Inside) : s.skipBlank.Inside := by
  rw [skipBlank_eq]
  exact hs.move (List.takeWhile_prefix _).length_le

theorem skipBlank_skipBlank (s : Scanner) : s.skipBlank.skipBlank = s.skipBlank := by
  obtain ⟨gap, rest, hcs, hgap, hhead⟩ := Lexer.exists_gap s.rest
  have hrest : s.skipBlank.rest = rest := by
    rw [skipBlank_eq, rest_move, hcs, takeWhile_append_of_stop hgap hhead, List.drop_left]
  have hnil : rest.takeWhile isBlank = [] :=
    takeWhile_append_of_stop (fun _ hc => absurd hc List.not_mem_nil) hhead
  rw [skipBlank_eq s.skipBlank, hrest, hnil]
  rfl

-- ---------------------------------------------------------------------------
-- One call
-- ---------------------------------------------------------------------------

theorem calls_of_next (h : s.next = some (outcome, s)) (m : Nat) :
    s.calls m = some (List.replicate m outcome, s) := by
  induction m with
  | zero => rfl
  | succ m ih => simp [calls, h, ih, List.replicate_succ]

theorem next_lexer_of_next (h : s.next = some (outcome, s')) :
    s.lexer.next = (outcome, s'.lexer) := by
  rw [next_eq, Option.some.injEq] at h
  rw [next_lexer, h]
  rfl

theorem next_at_end (h : s.position = s.input.length) :
    s.next = some (.ok (.atEnd s.input.length), s) := by
  have hrest : s.rest = [] := List.drop_eq_nil_of_le h.ge
  have hskip : s.skipBlank = s := by
    rw [skipBlank_eq, hrest]
    rfl
  rw [next_eq, hskip, hrest, ← h]
  rfl

structure Call (s : Scanner) (outcome : Except LexError Token) (s' : Scanner) : Prop where
  next : s.next = some (outcome, s')
  input : s'.input = s.input
  forward : s.position ≤ s'.position
  inside : s'.position ≤ s'.input.length
  /-- a token other than the end of the input takes characters -/
  token : ∀ t, outcome = .ok t → t.kind ≠ .eof → s.position < s'.position
  /-- no call gets past a character that begins no token -/
  unexpected : ∀ c p, outcome = .error (.unexpected c p) →
    p = s'.position ∧ ∀ m, s'.calls m = some (List.replicate m outcome, s')
  /-- after the end of the input, every call answers it -/
  ended :
    ((∃ p, outcome = .error (.unterminated p)) ∨ ∃ t, outcome = .ok t ∧ t.kind = .eof) →
    s'.position = s'.input.length ∧
      ∀ m, s'.calls m = some (List.replicate m (.ok (.atEnd s'.input.length)), s')

theorem call_of_lexeme {kind : TokenKind} {value : String} {width : Nat} (hs : s.Inside)
    (hscan : Scan.of s.skipBlank.rest = .lexeme kind value width) (hkind : kind ≠ .eof) :
    s.Call (.ok ⟨kind, value, s.skipBlank.position, width⟩) (s.skipBlank.move width) where
  next := by
    rw [next_eq, hscan]
    rfl
  input := s.input_skipBlank
  forward := Nat.le_add_right_of_le s.position_le_skipBlank
  inside := hs.skipBlank.move (Scan.takes_of hscan hkind).le
  token _ _ _ :=
    Nat.lt_add_of_pos_right (Scan.takes_of hscan hkind).pos |>.trans_le' s.position_le_skipBlank
  unexpected _ _ h := by cases h
  ended h := by
    rcases h with ⟨p, h⟩ | ⟨t, h, heof⟩ <;> cases h
    exact absurd heof hkind

/-- A call stops before a character that begins no token, and the next call finds it there. -/
theorem call_of_unexpected {c : Char} (hs : s.Inside)
    (hscan : Scan.of s.skipBlank.rest = .unexpected c) :
    s.Call (.error (.unexpected c s.skipBlank.position)) s.skipBlank where
  next := by
    rw [next_eq, hscan]
    rfl
  input := s.input_skipBlank
  forward := s.position_le_skipBlank
  inside := hs.skipBlank
  token _ h := by cases h
  unexpected _ _ h := by
    cases h
    refine ⟨rfl, calls_of_next ?_⟩
    rw [next_eq, skipBlank_skipBlank, hscan]
    rfl
  ended h := by rcases h with ⟨p, h⟩ | ⟨t, h, -⟩ <;> cases h

theorem call_of_ended {n : Nat} (hnext : s.next = some (outcome, s.skipBlank.move n))
    (hend : (s.skipBlank.move n).position = (s.skipBlank.move n).input.length)
    (houtcome : (∃ p, outcome = .error (.unterminated p)) ∨
      ∃ t, outcome = .ok t ∧ t.kind = .eof) :
    s.Call outcome (s.skipBlank.move n) where
  next := hnext
  input := s.input_skipBlank
  forward := Nat.le_add_right_of_le s.position_le_skipBlank
  inside := hend.le
  token t ht hkind := by
    rcases houtcome with ⟨p, rfl⟩ | ⟨t, rfl, heof⟩ <;> cases ht
    exact absurd heof hkind
  unexpected c p h := by rcases houtcome with ⟨q, rfl⟩ | ⟨t, rfl, -⟩ <;> cases h
  ended _ := ⟨hend, calls_of_next (next_at_end hend)⟩

/-- From inside of the input every call has an answer: what stands after the white space decides. -/
theorem Inside.call (hs : s.Inside) : ∃ outcome s', s.Call outcome s' := by
  have hskip := hs.skipBlank
  have hend : (s.skipBlank.move s.skipBlank.rest.length).position = s.skipBlank.input.length := by
    rw [length_rest]
    exact Nat.add_sub_cancel' hskip
  cases hscan : Scan.of s.skipBlank.rest with
  | lexeme kind value width =>
    by_cases hkind : kind = .eof
    · have hrest : s.skipBlank.rest = [] := by
        cases hrest : s.skipBlank.rest with
        | nil => rfl
        | cons c cs =>
          rw [hrest, hkind] at hscan
          exact absurd hscan Scan.ne_eof_of_cons
      rw [hrest] at hscan hend
      cases hscan
      exact ⟨_, _, call_of_ended (by rw [next_eq, hrest]; rfl) hend (.inr ⟨_, rfl, rfl⟩)⟩
    · exact ⟨_, _, call_of_lexeme hs hscan hkind⟩
  | unexpected c => exact ⟨_, _, call_of_unexpected hs hscan⟩
  | unterminated =>
    exact ⟨_, _, call_of_ended (by rw [next_eq, hscan]; rfl) hend (.inl ⟨_, rfl⟩)⟩

-- ---------------------------------------------------------------------------
-- Calls in a row
-- ---------------------------------------------------------------------------

/-- A call came to a token that is not the end of the input. -/
def Lexes (outcome : Except LexError Token) : Prop := ∃ t, outcome = .ok t ∧ t.kind ≠ .eof

/-- Calls in a row are those of the lexer, and there are not more tokens than characters passed. -/
theorem Inside.calls (hs : s.Inside) (n : Nat) :
    ∃ outcomes s', s.calls n = some (outcomes, s') ∧
    s.lexer.calls n = (outcomes, s'.lexer) ∧ s'.input = s.input ∧ s'.Inside ∧
    s.position ≤ s'.position ∧
    ((∀ outcome ∈ outcomes, Lexes outcome) → s.position + n ≤ s'.position) := by
  induction n generalizing s with
  | zero => exact ⟨[], s, rfl, rfl, rfl, hs, Nat.le_refl _, fun _ => Nat.le_refl _⟩
  | succ n ih =>
    obtain ⟨outcome, t, hcall⟩ := hs.call
    obtain ⟨outcomes, s', hcalls, hlexer, hinput, hinside, hforward, hlexes⟩ := ih hcall.inside
    refine ⟨outcome :: outcomes, s', ?_, ?_, hinput.trans hcall.input, hinside,
      hcall.forward.trans hforward, fun hall => ?_⟩
    · simp [Scanner.calls, hcall.next, hcalls]
    · simp [Lexer.calls, next_lexer_of_next hcall.next, hlexer]
    · obtain ⟨⟨token, rfl, hkind⟩, hothers⟩ := List.forall_mem_cons.1 hall
      have hfirst := hcall.token token rfl hkind
      have hpassed := hlexes hothers
      omega

/-- The end of the input comes before there are more calls than characters, and the fuel of the
lexer lasts. -/
theorem Inside.tokens (hs : s.Inside) {n fuel : Nat} (hn : s.rest.length < n)
    (hfuel : s.rest.length < fuel) : s.tokens n = some (s.lexer.tokens fuel) := by
  induction n generalizing s fuel with
  | zero => exact absurd hn (Nat.not_lt_zero _)
  | succ n ih =>
    obtain ⟨fuel, rfl⟩ := Nat.exists_eq_add_one.2 (Nat.zero_lt_of_lt hfuel)
    obtain ⟨outcome, s', hcall⟩ := hs.call
    rw [Scanner.tokens, hcall.next, Lexer.tokens, next_lexer_of_next hcall.next]
    cases outcome with
    | error e => rfl
    | ok token =>
      by_cases hkind : token.kind = .eof
      · simp [hkind]
      · have hless : s'.rest.length < s.rest.length := by
          have hforward := hcall.token token rfl hkind
          have hinside := hcall.inside
          rw [length_rest, length_rest]
          rw [hcall.input] at hinside ⊢
          omega
        have hrest : s'.tokens n = some (s'.lexer.tokens fuel) :=
          ih hcall.inside (by omega) (by omega)
        simp [hkind, hrest]

end Scanner

/-- Whatever a text holds and however often its scanner is called, a call answers what the lexer
does, goes forward and stays inside of the text. So the tokens of the text come to an end: there is
at most one of them for a character, and the end of the input. -/
theorem scanner_progresses (text : String) :
    (∀ n, ∃ outcomes s, (Scanner.ofText text).calls n = some (outcomes, s) ∧
      (Lexer.ofText text).calls n = (outcomes, s.lexer) ∧ s.input = text.toList ∧
      (∃ outcome s', s.Call outcome s' ∧ s.lexer.next = (outcome, s'.lexer)) ∧
      ((∀ outcome ∈ outcomes, Scanner.Lexes outcome) → n ≤ s.position)) ∧
    (∀ n, text.length < n → (Scanner.ofText text).tokens n = some (tokenize text)) ∧
    ∀ ts, tokenize text = .ok ts →
      ∃ lexemes, ts = lexemes ++ [.atEnd text.length] ∧ lexemes.length ≤ text.length := by
  have hs := Scanner.inside_ofText text
  refine ⟨fun n => ?_, fun n hn => hs.tokens hn (Nat.lt_succ_self _), fun ts hts => ?_⟩
  · obtain ⟨outcomes, s, hcalls, hlexer, hinput, hinside, -, hlexes⟩ := hs.calls n
    obtain ⟨outcome, s', hcall⟩ := hinside.call
    have hpassed (hall : ∀ outcome ∈ outcomes, Scanner.Lexes outcome) : n ≤ s.position :=
      Nat.le_trans (Nat.le_add_left _ _) (hlexes hall)
    exact ⟨outcomes, s, hcalls, hlexer, hinput,
      ⟨outcome, s', hcall, Scanner.next_lexer_of_next hcall.next⟩, hpassed⟩
  · have hlexed := lexed_of_tokenize hts
    obtain ⟨lexemes, rfl, -⟩ := hlexed.exists_lexemes
    have hlength := hlexed.length_le
    rw [List.length_append, String.length_toList] at hlength
    refine ⟨lexemes, ?_, Nat.le_of_add_le_add_right hlength⟩
    rw [Nat.zero_add, String.length_toList]

/-- A character that begins no token stays; behind a text that was not closed there is only the
end. -/
example : ((Lexer.ofText "a & 'b").calls 3).1 =
      [.ok ⟨.symbol, "a", 0, 1⟩, .error (.unexpected '&' 2), .error (.unexpected '&' 2)] ∧
    ((Lexer.ofText "a'\\").calls 3).1 =
      [.ok ⟨.symbol, "a", 0, 1⟩, .error (.unterminated 3), .ok (.atEnd 3)] := by
  decide +kernel

end DocSelect
