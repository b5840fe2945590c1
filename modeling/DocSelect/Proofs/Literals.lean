import DocSelect.Eval.Calls
import DocSelect.Proofs.Brackets
import DocSelect.Proofs.Execution
import DocSelect.Proofs.Json.Scalars
import DocSelect.Proofs.Precedence.Climbing

/-!
# Literals of integers

The text that an integer converts to is a selector for it: digits are one number token, and a minus
before them a token of its own, which the parser makes a sign. The digits are read before the sign
is, so the least integer, whose digits alone are out of range, is the only one without a literal.
-/
namespace DocSelect

variable {n : Nat} {i : Int64} {s : String}

-- ---------------------------------------------------------------------------
-- The tokens of a number
-- ---------------------------------------------------------------------------

namespace Scan

theorem of_minus {d : Char} (hd : d.isDigit = true) (ds : List Char) :
    of ('-' :: d :: ds) = .lexeme .minus "-" 1 := by
  have hassign : d ≠ '=' := by rintro rfl; exact absurd hd (by decide)
  have hminus : d ≠ '-' := by rintro rfl; exact absurd hd (by decide)
  have hpunctuation : punctuation '-' (d :: ds) = .lexeme .minus "-" 1 := by
    have hwidth : "-".length = 1 := rfl
    simp [punctuation, TokenKind.punctuation, TokenKind.text, hassign.symm, hminus.symm, hwidth]
  have hname : isNameStart '-' = false := by decide
  rw [of.eq_def]
  simpa [hname] using hpunctuation

theorem number_digits {cs : List Char} (hcs : ∀ c ∈ cs, c.isDigit = true) : number cs = cs := by
  have hagain := number_again hcs [] [] .nil
  simpa [fraction, floatMark] using hagain

end Scan

theorem isBlank_of_isDigit {c : Char} (hc : c.isDigit = true) : isBlank c = false := by
  have hdigits : ∀ n < 58, 48 ≤ n → blankRanges.contains n = false := by decide
  obtain ⟨hlow, hhigh⟩ := Char.isDigit_iff_toNat.1 hc
  exact hdigits c.toNat (Nat.lt_succ_of_le hhigh) hlow

theorem lexeme_digits (n : Nat) :
    Lexeme .number (String.ofList (Nat.toDigits 10 n)) (Nat.toDigits 10 n) := by
  have hdigits := Json.isDigit_toDigits n
  obtain ⟨c, cs, hcs⟩ := List.exists_cons_of_ne_nil (Nat.toDigits_ne_nil (n := n) (b := 10))
  rw [hcs] at hdigits ⊢
  have hc := hdigits c List.mem_cons_self
  have hvar : c ≠ '$' := by rintro rfl; exact absurd hc (by decide)
  have hquote : ¬ (c = '"' ∨ c = '\'') := by rintro (rfl | rfl) <;> exact absurd hc (by decide)
  have hregex : c ≠ 'r' := by rintro rfl; exact absurd hc (by decide)
  refine .of_scan ?_ (by decide) fun d hd => Option.some.inj hd ▸ isBlank_of_isDigit hc
  rw [Scan.of.eq_def]
  simp only [hvar, hquote, hregex, hc, Scan.number_digits hdigits, false_and, if_false, if_true]

theorem Lexeme.next {kind : TokenKind} {value : String} {text : List Char}
    (h : Lexeme kind value text) (position : Nat) :
    (Lexer.mk text position).next.1 = .ok ⟨kind, value, position, text.length⟩ := by
  have hnil : ∀ c ∈ ([] : List Char), isBlank c = true := fun _ hc => absurd hc List.not_mem_nil
  have hskip := Lexer.skipBlank_gap position hnil h.head
  have hscan := h.scan .nil
  rw [List.append_nil] at hscan
  rw [List.nil_append, List.length_nil, Nat.add_zero] at hskip
  simp only [Lexer.next, hskip, hscan]

theorem tokenize_minus_digits (n : Nat) : tokenize (String.ofList ('-' :: Nat.toDigits 10 n)) =
    .ok [⟨.minus, "-", 0, 1⟩,
      ⟨.number, String.ofList (Nat.toDigits 10 n), 1, (Nat.toDigits 10 n).length⟩,
      .atEnd (1 + (Nat.toDigits 10 n).length)] := by
  have hnil : ∀ c ∈ ([] : List Char), isBlank c = true := fun _ hc => absurd hc List.not_mem_nil
  have hdigits := Json.isDigit_toDigits n
  obtain ⟨c, cs, hcs⟩ := List.exists_cons_of_ne_nil (Nat.toDigits_ne_nil (n := n) (b := 10))
  have hminus : Scan.of ('-' :: Nat.toDigits 10 n) = .lexeme .minus "-" 1 := by
    rw [hcs] at hdigits ⊢
    exact Scan.of_minus (hdigits c List.mem_cons_self) cs
  have hhead : ∀ d ∈ ('-' :: Nat.toDigits 10 n).head?, isBlank d = false := fun d hd => by
    obtain rfl := Option.some.inj hd
    decide
  have hsign := Lexer.tokens_lexeme 0 hnil hhead hminus (by decide)
    ((Nat.toDigits 10 n).length + 1)
  have hnumber := (lexeme_digits n).tokens hnil .nil 1 (Nat.toDigits 10 n).length
  have hlength : (Nat.toDigits 10 n).length = cs.length + 1 := by rw [hcs, List.length_cons]
  have hend := Lexer.tokens_blank (1 + (Nat.toDigits 10 n).length) hnil cs.length
  rw [← hlength] at hend
  simp only [List.nil_append, List.append_nil, List.length_nil, List.drop_succ_cons, List.drop_zero,
    Nat.zero_add, Nat.add_zero] at hsign hnumber hend
  rw [tokenize, Lexer.ofText, String.toList_ofList, List.length_cons, hsign, hnumber, hend]
  rfl

-- ---------------------------------------------------------------------------
-- What the parser makes of them
-- ---------------------------------------------------------------------------

theorem readInt64?_digits (hi : i.toInt = n) :
    readInt64? (String.ofList (Nat.toDigits 10 n)) = some i := by
  have hdigits := Json.isDigit_toDigits n
  have hvalue := Json.digitsValue_toDigits n
  obtain ⟨c, cs, hcs⟩ := List.exists_cons_of_ne_nil (Nat.toDigits_ne_nil (n := n) (b := 10))
  rw [hcs] at hdigits hvalue
  have hall : (c :: cs).all Char.isDigit = true := List.all_eq_true.2 hdigits
  rw [readInt64?, String.toList_ofList, hcs, splitSign_of_isDigit (hdigits c List.mem_cons_self)]
  simp only [List.isEmpty_cons, hall, hvalue, Bool.not_true, Bool.or_false,
    Bool.false_eq_true, if_false, ← hi, int64?_eq_some_iff.2 rfl]

theorem Parser.numberLiteral_digits (hi : i.toInt = n) (position length : Nat) :
    numberLiteral ⟨.number, String.ofList (Nat.toDigits 10 n), position, length⟩ =
      .ok (.integer i) := by
  have hdigits := Json.isDigit_toDigits n
  have hmark : (Nat.toDigits 10 n).getLast? ≠ some 'f' := fun h =>
    absurd (hdigits 'f' (List.mem_of_getLast? h)) (by decide)
  have hpoint : '.' ∉ Nat.toDigits 10 n := fun h => absurd (hdigits '.' h) (by decide)
  simp only [numberLiteral, String.toList_ofList, ne_eq, not_true_eq_false, if_false, hmark, hpoint,
    readInt64?_digits hi]

theorem parse_of_operand {a : Operand} {stop : Token} (hs : tokenize s = .ok (a.tokens ++ [stop]))
    (hstop : stop.kind = .eof) : parse s = .ok a.expr := by
  have hahead :
      Parser.Ahead (Cursor.ofTokens (a.tokens ++ [stop])) (a.tokens ++ Further.tokens []) :=
    ⟨stop, hstop, by rw [(Cursor.of_tokenize hs).1, Further.tokens, List.append_nil]⟩
  have hyields := Parser.selector_yields hahead
  unfold Parser.Yields at hyields
  unfold parse
  rw [hs]
  dsimp only
  unfold parseTokens
  rw [← Parser.exec]
  rcases hrun : Parser.selector.exec (Cursor.ofTokens (a.tokens ++ [stop])) with ⟨e | e, c⟩ <;>
    rw [hrun] at hyields
  · exact absurd hyields.1 (by decide)
  · exact congrArg Except.ok (Reading.unique hyields (.operand a))

def Leaf.ofDigits (hi : i.toInt = n) (position : Nat) : Leaf where
  token := ⟨.number, String.ofList (Nat.toDigits 10 n), position, (Nat.toDigits 10 n).length⟩
  taken := ⟨⟨Nat.toDigits 10 n, position⟩, (lexeme_digits n).next position⟩
  isLeaf := rfl
  inRange := by
    intro _ _
    rw [String.toList_ofList, Json.digitsValue_toDigits, ← hi]
    exact fitsInt64_toInt i

theorem Leaf.expr_ofDigits (hi : i.toInt = n) (position : Nat) :
    (ofDigits hi position).expr = .integer i := by
  have hleaf := (ofDigits hi position).leaf?_eq
  have hliteral := Parser.numberLiteral_digits hi position (Nat.toDigits 10 n).length
  simp only [Token.leaf?, ofDigits, hliteral] at hleaf
  exact (Option.some.inj hleaf).symm

theorem parse_digits (hi : i.toInt = n) :
    parse (String.ofList (Nat.toDigits 10 n)) = .ok (.integer i) := by
  have h := parse_of_operand (a := .plain (Leaf.ofDigits hi 0)) (lexeme_digits n).tokenize rfl
  rwa [Operand.expr, Leaf.expr_ofDigits] at h

theorem parse_minus_digits (hi : i.toInt = n) :
    parse (String.ofList ('-' :: Nat.toDigits 10 n)) = .ok (.integer (-i)) := by
  have h := parse_of_operand (a := .minus ⟨.minus, "-", 0, 1⟩ rfl (Leaf.ofDigits hi 1))
    (tokenize_minus_digits n) rfl
  rwa [Operand.expr, Leaf.expr_ofDigits] at h

-- ---------------------------------------------------------------------------
-- From an integer to its text and back
-- ---------------------------------------------------------------------------

theorem toInt_neg_of_ne_minValue (hi : i ≠ Int64.minValue) : (-i).toInt = -i.toInt := by
  have hlow := Int64.minValue_le_toInt i
  have hhigh := Int64.toInt_le i
  have hne : i.toInt ≠ Int64.minValue.toInt := fun heq => hi (Int64.toInt_inj.1 heq)
  rw [Int64.toInt_minValue] at hlow hne
  rw [Int64.toInt_maxValue] at hhigh
  rw [Int64.toInt_neg]
  exact Int.bmod_eq_of_le (by omega) (by omega)

theorem scalarText_int (i : Int64) : Builtin.scalarText (.int i) =
    String.ofList (if i.toInt < 0 then '-' :: Nat.toDigits 10 i.toInt.natAbs
      else Nat.toDigits 10 i.toInt.natAbs) := by
  have htext : (Builtin.scalarText (.int i)).toList = Json.writeScalar (.int i) := rfl
  rw [← Json.writeScalar_int, ← htext, String.ofList_toList]

theorem parse_scalarText (hi : i ≠ Int64.minValue) :
    parse (Builtin.scalarText (.int i)) = .ok (.integer i) := by
  rw [scalarText_int]
  split <;> rename_i hneg
  · have hopposite : (-i).toInt = i.toInt.natAbs := by
      rw [toInt_neg_of_ne_minValue hi]
      omega
    rw [parse_minus_digits hopposite, Int64.neg_neg]
  · exact parse_digits (by omega)

theorem isBlankText_scalarText (i : Int64) : isBlankText (Builtin.scalarText (.int i)) = false := by
  obtain ⟨c, cs, hcs, hc⟩ := Json.writeScalar_int_head i
  have htext : (Builtin.scalarText (.int i)).toList = c :: cs := hcs
  have hblank : isBlank c = false := by
    rcases hc with hc | rfl
    · exact isBlank_of_isDigit hc
    · decide
  rw [isBlankText, htext, List.all_cons, hblank, Bool.false_and]

theorem parse_scalarText_minValue : parse (Builtin.scalarText (.int Int64.minValue)) =
    .error (.invalidNumber "9223372036854775808" 1) := by
  have htext : Builtin.scalarText (.int Int64.minValue) = "-9223372036854775808" := by
    decide +kernel
  have herror : (parse "-9223372036854775808").map (fun _ => ()) =
      .error (.invalidNumber "9223372036854775808" 1) := by decide +kernel
  rw [htext]
  generalize parse "-9223372036854775808" = outcome at herror ⊢
  rcases outcome with e | e
  · exact congrArg Except.error (Except.error.inj herror)
  · cases herror

/-- What an integer converts to is a literal of it, if it is not the least one: run as a selector on
anything but a branch, it makes a new node with the integer. The digits of the least integer are out
of range before their sign is seen, and its text is no selector. -/
theorem integers_have_literals (i : Int64) :
    (∀ (s : Store) (subject r : Ref), s.data r = .int i →
      (Builtin.asString.call subject [r]).exec s =
        (.ok (s.new (.string (Builtin.scalarText (.int i)))).1,
          (s.new (.string (Builtin.scalarText (.int i)))).2)) ∧
    (i ≠ Int64.minValue → parse (Builtin.scalarText (.int i)) = .ok (.integer i) ∧
      ∀ (settings : Settings) (document : Ref) (σ : Session),
        σ.store.isBranch document = false →
        execute settings (Builtin.scalarText (.int i)) document σ =
          (.ok (σ.store.new (.int i)).1, { σ with store := (σ.store.new (.int i)).2 })) ∧
    (i = Int64.minValue → ∀ (settings : Settings) (document : Ref) (σ : Session),
      execute settings (Builtin.scalarText (.int i)) document σ =
        (.error (.parse (.invalidNumber "9223372036854775808" 1)), σ)) := by
  refine ⟨fun s subject r hr => ?_, fun hi =>
    ⟨parse_scalarText hi, fun settings document σ hd => ?_⟩,
    fun hi settings document σ => ?_⟩
  · show Action.exec (Builtin.convert .string
        (fun a => .ok (.string (Builtin.scalarText a))) r) s = _
    simp only [Builtin.convert, Action.exec_bind, Action.exec_read, hr, Data.int, Action.exec_new]
  · have hrun : evaluate settings (.integer i) document σ =
        (.ok (σ.store.new (.int i)).1, { σ with store := (σ.store.new (.int i)).2 }) :=
      evaluate_ok _ hd (by rw [Expr.denote, Eval.exec_new])
    simp only [execute, isBlankText_scalarText, parse_scalarText hi, hrun,
      Bool.false_eq_true, if_false]
    rfl
  · subst hi
    simp only [execute, isBlankText_scalarText, parse_scalarText_minValue,
      Bool.false_eq_true, if_false]

/-- An integer below zero, written down and run. -/
theorem integers_have_literals_below_zero :
    let settings := Settings.standard (fun _ => none) FileSystem.bare
    let (document, σ) := Session.start .null []
    σ.store.isBranch document = false ∧ Builtin.scalarText (.int (-12)) = "-12" ∧
      parse "-12" = .ok (.integer (-12)) ∧
      execute settings "-12" document σ =
        (.ok (σ.store.new (.int (-12))).1,
          { σ with store := (σ.store.new (.int (-12))).2 }) := by
  have htext : Builtin.scalarText (.int (-12)) = "-12" := by decide +kernel
  obtain ⟨-, hrun, -⟩ := integers_have_literals (-12)
  obtain ⟨hparse, hexecute⟩ := hrun (by decide)
  rw [htext] at hparse hexecute
  exact ⟨rfl, htext, hparse, hexecute _ _ _ rfl⟩

/-- The conversion to an integer reads the text of the least integer, but a selector it is not. -/
theorem least_integer_no_literal :
    Builtin.scalarText (.int Int64.minValue) = "-9223372036854775808" ∧
    readInt64? "-9223372036854775808" = some Int64.minValue ∧
    ¬ ∀ (i : Int64) (settings : Settings) (document : Ref) (σ : Session),
      σ.store.isBranch document = false → ∃ r υ,
        execute settings (Builtin.scalarText (.int i)) document σ = (.ok r, υ) ∧
          υ.store.data r = .int i := by
  refine ⟨by decide +kernel, by decide +kernel, fun hall => ?_⟩
  obtain ⟨r, υ, hrun, -⟩ := hall Int64.minValue
    (Settings.standard (fun _ => none) FileSystem.bare) ⟨0⟩
    ⟨Store.empty, Dict.empty⟩ rfl
  simp only [execute, isBlankText_scalarText, parse_scalarText_minValue, Bool.false_eq_true,
    if_false] at hrun
  cases hrun

end DocSelect
