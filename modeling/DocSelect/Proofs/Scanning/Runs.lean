import DocSelect.Proofs.Tokens.Lexeme
import DocSelect.Token.Scanner

/-!
# Runs of characters in a scanner

A scanner moves along its input as a lexer takes the input off. Each of its loops reads what the
lexer reads from the characters that are left, and moves on by as many.
-/
namespace DocSelect

namespace Scanner

variable {s : Scanner} {c : Char} {cs : List Char} {n : Nat}

def rest (s : Scanner) : List Char := s.input.drop s.position

def lexer (s : Scanner) : Lexer := ⟨s.rest, s.position⟩

-- ---------------------------------------------------------------------------
-- Moves
-- ---------------------------------------------------------------------------

theorem rest_move (s : Scanner) (n : Nat) : (s.move n).rest = s.rest.drop n := by
  rw [rest, rest, move, List.drop_drop]

theorem lexer_move (s : Scanner) (n : Nat) : (s.move n).lexer = s.lexer.drop n := by
  rw [lexer, rest_move]
  rfl

theorem move_zero (s : Scanner) : s.move 0 = s := rfl

theorem move_move (s : Scanner) (m n : Nat) : (s.move m).move n = s.move (m + n) := by
  rw [move, move, move, Nat.add_assoc]

theorem peek?_eq (s : Scanner) (offset : Nat) : s.peek? offset = s.rest[offset]? := by
  rw [peek?, rest, List.getElem?_drop]

theorem current?_eq (s : Scanner) : s.current? = s.rest.head? := by
  rw [current?, peek?_eq, List.head?_eq_getElem?]

theorem rest_of_current? (h : s.current? = some c) : s.rest = c :: (s.move 1).rest := by
  rw [current?_eq] at h
  obtain ⟨cs, hcs⟩ := List.head?_eq_some_iff.1 h
  rw [rest_move, hcs]
  rfl

theorem rest_of_current?_none (h : s.current? = none) : s.rest = [] := by
  rwa [current?_eq, List.head?_eq_none_iff] at h

-- ---------------------------------------------------------------------------
-- Runs of characters
-- ---------------------------------------------------------------------------

theorem span_eq (test : Char → Bool) (s : Scanner) :
    s.span test = (s.rest.takeWhile test, s.move (s.rest.takeWhile test).length) := by
  fun_induction span test s with
  | case1 s h =>
    rw [rest_of_current?_none h]
    rfl
  | case2 s c h htest text s' heq ih =>
    rw [heq] at ih
    cases ih
    rw [rest_of_current? h, List.takeWhile_cons_of_pos htest, move_move,
      List.length_cons, Nat.add_comm]
  | case3 s c h htest =>
    rw [rest_of_current? h, List.takeWhile_cons_of_neg htest]
    rfl

theorem lexer_skipBlank (s : Scanner) : s.skipBlank.lexer = s.lexer.skipBlank := by
  rw [skipBlank, span_eq, lexer_move]
  rfl

/-- A text that was closed, and the place behind it; else the end of the input. -/
def after (s : Scanner) : Option (List Char × Nat) → Option (List Char) × Scanner
  | some (text, n) => (some text, s.move n)
  | none => (none, s.move s.rest.length)

theorem after_map {found : Option (List Char × Nat)} {text : Option (List Char)} {s' : Scanner}
    (h : (text, s') = (s.move n).after found) (hn : n ≤ s.rest.length)
    (f : List Char → List Char) :
    (text.map f, s') = s.after (found.map fun (t, m) => (f t, m + n)) := by
  rcases found with _ | ⟨t, m⟩ <;> cases h
  · simp only [after, Option.map_none, move_move, rest_move, List.length_drop,
      Nat.add_sub_cancel' hn]
  · simp only [after, Option.map_some, move_move, Nat.add_comm]

theorem after_none_of_rest (h : s.rest = []) : (none, s) = s.after none := by
  rw [after, h]
  rfl

theorem quoted_eq (quote : Char) (s : Scanner) :
    s.quoted quote = s.after (Scan.quoted quote s.rest) := by
  fun_induction quoted quote s with
  | case1 s h =>
    have hrest := rest_of_current?_none h
    rw [after_none_of_rest hrest, hrest, Scan.quoted]
  | case2 s h =>
    rw [rest_of_current? h, Scan.quoted.eq_def]
    simp only [if_true, after]
  | case3 s hnext h hquote =>
    have hrest := rest_of_current? h
    rw [rest_of_current?_none hnext] at hrest
    rw [hrest, Scan.quoted, if_neg hquote, if_pos rfl, after, hrest, List.length_singleton]
  | case4 s escaped hnext text s' heq h hquote ih =>
    have hrest := rest_of_current? h
    rw [rest_of_current? hnext, move_move] at hrest
    rw [after_map (heq.symm.trans ih) (by simp [hrest]), hrest, Scan.quoted,
      if_neg hquote, if_pos rfl]
  | case5 s c h hquote hescape text s' heq ih =>
    have hrest := rest_of_current? h
    have hscan : Scan.quoted quote (c :: (s.move 1).rest) =
        (Scan.quoted quote (s.move 1).rest).map fun (t, m) => (c :: t, m + 1) := by
      rw [Scan.quoted.eq_def]
      simp only [if_neg hquote, if_neg hescape]
    rw [after_map (heq.symm.trans ih) (by simp [hrest]), hrest, hscan]

theorem pattern_eq (s : Scanner) : s.pattern = s.after (Scan.pattern s.rest) := by
  fun_induction pattern s with
  | case1 s h =>
    have hrest := rest_of_current?_none h
    rw [after_none_of_rest hrest, hrest, Scan.pattern]
  | case2 s h => rw [rest_of_current? h, Scan.pattern, after]
  | case3 s c h hslash hescape text s' heq ih =>
    obtain ⟨rfl, hpeek⟩ := hescape
    have hrest : s.rest = '\\' :: '/' :: (s.move 2).rest := by
      rw [rest_of_current? h, rest_of_current? (s := s.move 1) hpeek, move_move]
    rw [after_map (heq.symm.trans ih) (by simp [hrest]), hrest, Scan.pattern]
  | case4 s c h hslash hescape text s' heq ih =>
    have hrest := rest_of_current? h
    rw [after_map (heq.symm.trans ih) (by simp [hrest]), hrest, Scan.pattern]
    · exact hslash
    · intro cs hc hcs
      refine hescape ⟨hc, ?_⟩
      rw [peek?_eq, hrest, hcs]
      rfl

-- ---------------------------------------------------------------------------
-- Numbers
-- ---------------------------------------------------------------------------

/-- The digits of a number without its mark, with a fraction only if there was no point before
them. -/
def digitsOf (pointed : Bool) (cs : List Char) : List Char :=
  let whole := cs.takeWhile Char.isDigit
  whole ++ if pointed then [] else Scan.fraction (cs.drop whole.length)

theorem digitsOf_digit (pointed : Bool) (h : c.isDigit = true) :
    digitsOf pointed (c :: cs) = c :: digitsOf pointed cs := by
  simp only [digitsOf, List.takeWhile_cons_of_pos h, List.length_cons, List.drop_succ_cons,
    List.cons_append]

theorem digitsOf_not_digit (pointed : Bool) (h : ¬ c.isDigit = true) :
    digitsOf pointed (c :: cs) = if pointed then [] else Scan.fraction (c :: cs) := by
  simp only [digitsOf, List.takeWhile_cons_of_neg h, List.length_nil, List.drop_zero,
    List.nil_append]

theorem any_peek?_one (h : s.rest = c :: cs) (test : Char → Bool) :
    (s.peek? 1).any test = (cs.head?.map test).getD false := by
  rw [peek?_eq, h, List.getElem?_cons_succ, ← List.head?_eq_getElem?]
  cases cs <;> rfl

theorem digits_eq (pointed : Bool) (s : Scanner) :
    s.digits pointed = (digitsOf pointed s.rest, s.move (digitsOf pointed s.rest).length) := by
  fun_induction digits pointed s with
  | case1 pointed s h =>
    rw [rest_of_current?_none h]
    cases pointed <;> rfl
  | case2 pointed s c h hdigit text s' heq ih =>
    cases heq.symm.trans ih
    rw [rest_of_current? h, digitsOf_digit pointed hdigit, move_move,
      List.length_cons, Nat.add_comm]
  | case3 pointed s c h hdigit hpoint text s' heq ih =>
    obtain ⟨rfl, rfl, hnext⟩ := hpoint
    cases heq.symm.trans ih
    have hrest := rest_of_current? h
    rw [any_peek?_one hrest] at hnext
    have hpart : digitsOf false ('.' :: (s.move 1).rest) =
        '.' :: digitsOf true (s.move 1).rest := by
      rw [digitsOf_not_digit false hdigit]
      simp [Scan.fraction, hnext, digitsOf]
    rw [hrest, hpart, move_move, List.length_cons, Nat.add_comm]
  | case4 pointed s c h hdigit hpoint =>
    have hrest := rest_of_current? h
    rw [any_peek?_one hrest] at hpoint
    have hpart : digitsOf pointed (c :: (s.move 1).rest) = [] := by
      rw [digitsOf_not_digit pointed hdigit]
      cases pointed with
      | true => rfl
      | false =>
        show Scan.fraction (c :: (s.move 1).rest) = []
        unfold Scan.fraction
        split
        · rename_i heq
          cases heq
          exact if_neg fun hnext => hpoint ⟨rfl, rfl, hnext⟩
        · rfl
    rw [hrest, hpart]
    rfl

theorem floatMark_eq (s : Scanner) (text : List Char) :
    (if s.current? = some 'f' ∧ ¬ (s.peek? 1).any Scan.isNameChar then (text ++ ['f'], s.move 1)
      else (text, s)) = (text ++ Scan.floatMark s.rest, s.move (Scan.floatMark s.rest).length) := by
  by_cases hmark : s.current? = some 'f'
  · have hrest := rest_of_current? hmark
    rw [any_peek?_one hrest, hrest, Scan.floatMark]
    by_cases hname : ((s.move 1).rest.head?.map Scan.isNameChar).getD false = true
    · simp [hname, move_zero]
    · simp [hmark, hname]
  · have hnone : Scan.floatMark s.rest = [] := by
      unfold Scan.floatMark
      split
      · rename_i hrest
        exact absurd (by rw [current?_eq, hrest]; rfl) hmark
      · rfl
    rw [hnone, if_neg fun h => hmark h.1, List.append_nil]
    rfl

theorem number_eq (s : Scanner) :
    s.number = (Scan.number s.rest, s.move (Scan.number s.rest).length) := by
  have hnumber : Scan.number s.rest =
      digitsOf false s.rest ++ Scan.floatMark (s.move (digitsOf false s.rest).length).rest := by
    rw [rest_move]
    rfl
  unfold number
  rw [digits_eq, hnumber, List.length_append, ← move_move]
  exact floatMark_eq _ _

end Scanner

end DocSelect
