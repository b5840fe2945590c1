import DocSelect.Expr.Parser
import DocSelect.Proofs.Tokens.Lexeme

/-!
# Tokens that stand for operands

A literal, a variable or a property is one token. Every such token that the lexer takes from a text
stands for an expression, as long as an integer fits into 64 bits: what the lexer takes for a number
is one also for the reader of numbers.
-/
namespace DocSelect

def Token.leaf? (t : Token) : Option Expr :=
  match t.kind with
  | .number => (Parser.numberLiteral t).toOption
  | .string => some (.string t.value)
  | .bool => some (.boolean (t.value == "true"))
  | .null => some .null
  | .regex => some (.regex t.value)
  | .var => some (.var t.value)
  | .symbol => some (.property t.value)
  | k => if Parser.isPropertyWord k then some (.property t.value) else none

def TokenKind.isLeaf (k : TokenKind) : Bool :=
  [number, string, bool, null, regex, var, symbol].contains k || Parser.isPropertyWord k

def Token.InRange (t : Token) : Prop :=
  t.kind = .number → t.value.toList.all Char.isDigit = true →
    fitsInt64 (digitsValue t.value.toList) = true

-- ---------------------------------------------------------------------------
-- What the lexer takes for a number
-- ---------------------------------------------------------------------------

def NumberText (cs : List Char) : Prop :=
  ∃ whole fraction mark : List Char, cs = whole ++ fraction ++ mark ∧
    whole ≠ [] ∧ whole.all Char.isDigit = true ∧
    (fraction = [] ∨ ∃ ds, fraction = '.' :: ds ∧ ds.all Char.isDigit = true) ∧
    (mark = [] ∨ mark = ['f'])

namespace Scan

theorem numberText {c : Char} (hc : c.isDigit = true) (cs : List Char) :
    NumberText (number (c :: cs)) := by
  refine ⟨_, _, _, rfl, by simp [hc], List.all_takeWhile, (fraction_shape _).imp_right ?_,
    floatMark_shape _⟩
  rintro ⟨d, ds, h, hdigits⟩
  exact ⟨d :: ds, h, List.all_eq_true.2 hdigits⟩

theorem word_ne_number {text value : String} {width n : Nat} :
    word text width ≠ lexeme .number value n := by
  unfold word
  dsimp only
  split
  · simp
  · split
    · simp
    · split <;> simp

theorem punctuation_ne_number {c : Char} {cs : List Char} {value : String} {n : Nat} :
    punctuation c cs ≠ lexeme .number value n := by
  unfold punctuation
  split
  · rename_i k hk
    have hmem := List.mem_of_find?_eq_some hk
    intro h
    obtain rfl := (Scan.lexeme.inj h).1
    exact absurd hmem (by decide)
  · simp

theorem numberText_of {cs : List Char} {value : String} {n : Nat}
    (h : of cs = lexeme .number value n) : NumberText value.toList := by
  unfold of at h
  split at h
  · simp at h
  · rename_i c cs
    split at h
    · simp at h
    · split at h
      · split at h <;> simp at h
      · split at h
        · split at h <;> simp at h
        · split at h
          · rename_i hc
            obtain ⟨-, rfl, -⟩ := Scan.lexeme.inj h
            rw [String.toList_ofList]
            exact numberText hc cs
          · split at h
            · exact absurd h word_ne_number
            · exact absurd h punctuation_ne_number

end Scan

theorem Lexer.numberText_of_next {l : Lexer} {t : Token} (h : l.next.1 = .ok t)
    (ht : t.kind = .number) : NumberText t.value.toList := by
  unfold next at h
  dsimp only at h
  split at h
  · rename_i kind value width hof
    obtain rfl := Except.ok.inj h
    obtain rfl : kind = .number := ht
    exact Scan.numberText_of hof
  · cases h
  · cases h

-- ---------------------------------------------------------------------------
-- What a number says
-- ---------------------------------------------------------------------------

theorem splitSign_of_isDigit {c : Char} (hc : c.isDigit = true) (cs : List Char) :
    splitSign (c :: cs) = (false, c :: cs) := by
  unfold splitSign
  split
  · rename_i heq
    obtain ⟨rfl, -⟩ := List.cons.inj heq
    exact absurd hc (by decide)
  · rename_i heq
    obtain ⟨rfl, -⟩ := List.cons.inj heq
    exact absurd hc (by decide)
  · rfl

theorem readInt64?_isSome {s : String} (hne : s.toList ≠ [])
    (hd : s.toList.all Char.isDigit = true) (hfits : fitsInt64 (digitsValue s.toList) = true) :
    (readInt64? s).isSome = true := by
  unfold readInt64?
  rcases hs : s.toList with _ | ⟨c, cs⟩
  · exact absurd hs hne
  · rw [hs] at hd hfits
    have hc : c.isDigit = true := (List.all_eq_true.1 hd) c List.mem_cons_self
    simp [splitSign_of_isDigit hc, hd, int64?, hfits]

theorem Binary64.readDecimal?_isSome {whole fraction : List Char} (negative : Bool)
    (hne : whole ≠ []) (hw : whole.all Char.isDigit = true)
    (hf : fraction = [] ∨ ∃ ds, fraction = '.' :: ds ∧ ds.all Char.isDigit = true) :
    (readDecimal? negative (whole ++ fraction)).isSome = true := by
  have hall {cs : List Char} (h : cs.all Char.isDigit = true) : ∀ c ∈ cs, c.isDigit = true :=
    List.all_eq_true.1 h
  have hdot : ('.' : Char).isDigit = false := by decide
  have hdropAll {cs : List Char} (h : cs.all Char.isDigit = true) :
      cs.dropWhile Char.isDigit = [] := by
    simpa using @List.dropWhile_append_of_pos _ _ cs [] (hall h)
  unfold readDecimal?
  rcases hf with rfl | ⟨ds, rfl, hds⟩
  · rw [List.takeWhile_append_of_pos (hall hw), List.dropWhile_append_of_pos (hall hw)]
    simp [hne, readExponent?]
  · have htake : (whole ++ '.' :: ds).takeWhile Char.isDigit = whole := by
      rw [List.takeWhile_append_of_pos (hall hw), List.takeWhile_cons_of_neg (by simp [hdot]),
        List.append_nil]
    have hdrop : (whole ++ '.' :: ds).dropWhile Char.isDigit = '.' :: ds := by
      rw [List.dropWhile_append_of_pos (hall hw), List.dropWhile_cons_of_neg (by simp [hdot])]
    simp [htake, hdrop, hdropAll hds, hne, readExponent?]

theorem Binary64.read?_isSome {s : String} {whole fraction : List Char}
    (hs : s.toList = whole ++ fraction) (hne : whole ≠ []) (hw : whole.all Char.isDigit = true)
    (hf : fraction = [] ∨ ∃ ds, fraction = '.' :: ds ∧ ds.all Char.isDigit = true) :
    (read? s).isSome = true := by
  have hsign : splitSign s.toList = (false, whole ++ fraction) := by
    rw [hs]
    rcases whole with _ | ⟨c, cs⟩
    · exact absurd rfl hne
    · exact splitSign_of_isDigit (List.all_eq_true.1 hw c List.mem_cons_self) _
  unfold read?
  rw [hsign]
  dsimp only
  split
  · rfl
  · split
    · rfl
    · exact readDecimal?_isSome false hne hw hf

theorem Parser.numberLiteral_ok {t : Token} (hk : t.kind = .number) (ht : NumberText t.value.toList)
    (hr : t.InRange) : ∃ e, numberLiteral t = .ok e := by
  obtain ⟨whole, fraction, mark, hcs, hne, hw, hf, hmark⟩ := ht
  have hdigit : ∀ c ∈ whole, c.isDigit = true := List.all_eq_true.1 hw
  unfold numberLiteral
  dsimp only
  rw [if_neg (by simp [hk])]
  rcases hmark with rfl | rfl
  · -- without a mark the last character is a digit or a point
    rw [List.append_nil] at hcs
    have hlast : t.value.toList.getLast? ≠ some 'f' := by
      intro h
      have hmem : 'f' ∈ whole ++ fraction := hcs ▸ List.mem_of_getLast? h
      rcases List.mem_append.1 hmem with hmem | hmem
      · exact absurd (hdigit _ hmem) (by decide)
      · rcases hf with rfl | ⟨ds, rfl, hds⟩
        · simp at hmem
        · rcases List.mem_cons.1 hmem with heq | hmem
          · exact absurd heq (by decide)
          · exact absurd (List.all_eq_true.1 hds _ hmem) (by decide)
    rw [if_neg hlast]
    split
    · obtain ⟨x, hx⟩ := Option.isSome_iff_exists.1 (Binary64.read?_isSome hcs hne hw hf)
      exact ⟨.float x, by rw [hx]⟩
    · rename_i hdot
      have hnil : fraction = [] := by
        rcases hf with rfl | ⟨ds, rfl, -⟩
        · rfl
        · exact absurd (by simp [hcs]) hdot
      rw [hnil, List.append_nil] at hcs
      have hsome := readInt64?_isSome (s := t.value) (hcs ▸ hne) (hcs ▸ hw) (hr hk (hcs ▸ hw))
      obtain ⟨i, hi⟩ := Option.isSome_iff_exists.1 hsome
      exact ⟨.integer i, by rw [hi]⟩
  · have hlast : t.value.toList.getLast? = some 'f' := by simp [hcs]
    have hread : (String.ofList t.value.toList.dropLast).toList = whole ++ fraction := by
      rw [String.toList_ofList, hcs, List.dropLast_concat]
    rw [if_pos hlast]
    obtain ⟨x, hx⟩ := Option.isSome_iff_exists.1 (Binary64.read?_isSome hread hne hw hf)
    exact ⟨.float x, by rw [hx]⟩

theorem Parser.steps_numberLiteral {t : Token} {e : Expr} (h : numberLiteral t = .ok e) :
    e.steps = [e] := by
  unfold numberLiteral at h
  dsimp only at h
  split at h
  · cases h
  · split at h
    · split at h <;> cases h
      rfl
    · split at h <;> split at h <;> cases h <;> rfl

theorem Parser.steps_negated (e : Expr) : (negated e).steps = [negated e] := by
  unfold negated
  split <;> rfl

-- ---------------------------------------------------------------------------
-- Operands of one token
-- ---------------------------------------------------------------------------

structure Leaf where
  token : Token
  taken : ∃ l : Lexer, l.next.1 = .ok token
  isLeaf : token.kind.isLeaf = true
  inRange : token.InRange

namespace Leaf

theorem leaf?_isSome (a : Leaf) : a.token.leaf?.isSome = true := by
  obtain ⟨l, hl⟩ := a.taken
  have hleaf := a.isLeaf
  unfold Token.leaf?
  split
  · rename_i hk
    obtain ⟨e, he⟩ := Parser.numberLiteral_ok hk (l.numberText_of_next hl hk) a.inRange
    rw [he]
    rfl
  any_goals rfl
  simp_all [TokenKind.isLeaf]

def expr (a : Leaf) : Expr := a.token.leaf?.get a.leaf?_isSome

theorem leaf?_eq (a : Leaf) : a.token.leaf? = some a.expr := (Option.some_get _).symm

theorem steps_expr (a : Leaf) : a.expr.steps = [a.expr] := by
  have h := a.leaf?_eq
  unfold Token.leaf? at h
  split at h
  · rcases hn : Parser.numberLiteral a.token with e | e <;> rw [hn] at h
    · cases h
    · obtain rfl := Option.some.inj h
      exact Parser.steps_numberLiteral hn
  any_goals (rw [Option.some.injEq] at h; rw [← h]; rfl)
  split at h
  · exact Option.some.inj h ▸ rfl
  · cases h

end Leaf

end DocSelect
