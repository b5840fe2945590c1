import DocSelect.Json.Reader
import DocSelect.Json.Writer
import DocSelect.Proofs.Tokens.Lexeme

/-!
# Scalars written and read again

The reader gives back each scalar that the writer writes, floating point numbers apart, and what
follows it. A number is read as far as its digits go, so what follows must not carry it on.
-/
namespace DocSelect

namespace Json

def Ends (rest : List Char) : Prop :=
  ∀ c ∈ rest.head?, c.isDigit = false ∧ c ≠ '.' ∧ c ≠ 'e' ∧ c ≠ 'E'

theorem Ends.nil : Ends [] := fun _ h => by cases h

theorem Ends.cons {c : Char} (h : c.isDigit = false ∧ c ≠ '.' ∧ c ≠ 'e' ∧ c ≠ 'E')
    (cs : List Char) :
    Ends (c :: cs) := fun _ hd => by cases hd; exact h

def Blank (cs : List Char) : Prop := ∀ c ∈ cs, isSpace c = true

theorem Blank.nil : Blank [] := fun _ h => by cases h

theorem Blank.skipSpace_append {a : List Char} (h : Blank a) (cs : List Char) :
    skipSpace (a ++ cs) = skipSpace cs :=
  List.dropWhile_append_of_pos h

theorem Blank.ends_append {a cs : List Char} (h : Blank a) (hcs : Ends cs) : Ends (a ++ cs) := by
  cases a with
  | nil => exact hcs
  | cons c a =>
    have hc := h c List.mem_cons_self
    refine Ends.cons ?_ _
    simp only [isSpace, Bool.or_eq_true, decide_eq_true_eq] at hc
    obtain ((rfl | rfl) | rfl) | rfl := hc <;> decide

theorem skipSpace_cons {c : Char} (h : isSpace c = false) (cs : List Char) :
    skipSpace (c :: cs) = c :: cs :=
  List.dropWhile_cons_of_neg (by simp [h])

-- ---------------------------------------------------------------------------
-- Integers
-- ---------------------------------------------------------------------------

theorem digitsValue_toDigits (n : Nat) : digitsValue (Nat.toDigits 10 n) = n := by
  have h : digitsValue (Nat.toDigits 10 n) = Nat.ofDigitChars 10 (Nat.toDigits 10 n) 0 := rfl
  rw [h, Nat.ofDigitChars_ten_toDigits]

theorem toDigits_eq_zero_or_head {n : Nat} :
    Nat.toDigits 10 n = ['0'] ∨ ∃ c cs, Nat.toDigits 10 n = c :: cs ∧ c ≠ '0' := by
  induction n using Nat.strongRecOn with
  | ind n ih =>
    rw [Nat.toDigits_eq_if (by decide)]
    split
    · by_cases hn : n = 0
      · exact .inl (by rw [hn]; rfl)
      · exact .inr ⟨_, _, rfl, by simpa using hn⟩
    · right
      rename_i hten
      rcases ih (n / 10) (by omega) with h | ⟨c, cs, h, hc⟩
      · -- a quotient with the digits of zero is zero
        have := congrArg digitsValue h
        rw [digitsValue_toDigits] at this
        change n / 10 = 0 at this
        omega
      · exact ⟨c, cs ++ [Nat.digitChar (n % 10)], by rw [h]; rfl, hc⟩

theorem isDigit_toDigits (n : Nat) : ∀ c ∈ Nat.toDigits 10 n, c.isDigit = true :=
  fun _ h => Nat.isDigit_of_mem_toDigits (by decide) (by decide) h

variable {rest : List Char}

theorem readWhole_digits (n : Nat) (h : Ends rest) :
    readWhole (Nat.toDigits 10 n ++ rest) = some (Nat.toDigits 10 n, rest) := by
  have hstop : ∀ c ∈ rest.head?, c.isDigit = false := fun c hc => (h c hc).1
  rcases toDigits_eq_zero_or_head (n := n) with hn | ⟨c, cs, hn, hc⟩
  · have hlook : ¬ (rest.head?.map Char.isDigit).getD false = true := by
      rw [look_iff]
      rintro ⟨c, hc, hd⟩
      simp [hstop c hc] at hd
    rw [hn, List.singleton_append, readWhole, if_neg hlook]
  · have hall := isDigit_toDigits n
    have htake := takeWhile_append_of_stop hall hstop
    have hdrop : (Nat.toDigits 10 n ++ rest).dropWhile Char.isDigit = rest := by
      have := List.takeWhile_append_dropWhile (p := Char.isDigit) (l := Nat.toDigits 10 n ++ rest)
      rw [htake] at this
      exact List.append_cancel_left this
    have hne : (Nat.toDigits 10 n).isEmpty = false := by simp [Nat.toDigits_ne_nil]
    unfold readWhole
    split
    · rename_i heq
      rw [hn] at heq
      exact absurd (List.cons.inj heq).1 hc
    · simp only [htake, hdrop, hne, Bool.false_eq_true, if_false]

theorem readFraction_of_ends (h : Ends rest) : readFraction rest = some (none, rest) := by
  cases rest with
  | nil => rfl
  | cons c cs =>
    unfold readFraction
    split
    · rename_i heq
      exact absurd (List.cons.inj heq).1 (h c rfl).2.1
    · rfl

theorem readExponent_of_ends (h : Ends rest) : readExponent rest = some (none, rest) := by
  cases rest with
  | nil => rfl
  | cons c cs =>
    obtain ⟨-, -, he, hE⟩ := h c rfl
    rw [readExponent, if_neg (by simp [he, hE])]

theorem wholeValue?_digits (i : Int64) :
    wholeValue? (decide (i.toInt < 0)) (Nat.toDigits 10 i.toInt.natAbs) = some (.int i) := by
  have hvalue : (if decide (i.toInt < 0) = true then -(i.toInt.natAbs : Int) else i.toInt.natAbs) =
      i.toInt := by
    split <;> rename_i h <;> rw [decide_eq_true_eq] at h <;> omega
  have hzero : (decide (i.toInt < 0) && decide ((i.toInt.natAbs : Int) = 0)) = false := by
    simp only [Bool.and_eq_false_iff, decide_eq_false_iff_not]
    omega
  simp only [wholeValue?, digitsValue_toDigits, hzero, hvalue, int64?_eq_some_iff.2 rfl,
    Bool.false_eq_true, if_false]

theorem writeScalar_int (i : Int64) : writeScalar (.int i) =
    if i.toInt < 0 then '-' :: Nat.toDigits 10 i.toInt.natAbs
    else Nat.toDigits 10 i.toInt.natAbs := by
  rw [writeScalar, Int.toString_eq_repr, Int.repr_eq_if]
  rcases Int.lt_or_le i.toInt 0 with h | h
  · have habs : (-i.toInt).toNat = i.toInt.natAbs := by omega
    rw [if_neg (Int.not_le.2 h), if_pos h, String.toList_append, Nat.toList_repr, habs]
    rfl
  · have habs : i.toInt.toNat = i.toInt.natAbs := by omega
    rw [if_pos h, if_neg (Int.not_lt.2 h), Nat.toList_repr, habs]

theorem writeScalar_int_head (i : Int64) :
    ∃ c cs, writeScalar (.int i) = c :: cs ∧ (c.isDigit = true ∨ c = '-') := by
  rw [writeScalar_int]
  split
  · exact ⟨_, _, rfl, .inr rfl⟩
  · obtain ⟨c, cs, heq⟩ :=
      List.exists_cons_of_ne_nil (Nat.toDigits_ne_nil (n := i.toInt.natAbs) (b := 10))
    refine ⟨c, cs, heq, .inl (isDigit_toDigits i.toInt.natAbs c ?_)⟩
    rw [heq]
    exact List.mem_cons_self

theorem readNumber_int (i : Int64) (h : Ends rest) :
    readNumber (writeScalar (.int i) ++ rest) = some (.int i, rest) := by
  have hvalue := wholeValue?_digits i
  rw [writeScalar_int]
  split <;> rename_i hneg
  · rw [decide_eq_true hneg] at hvalue
    simp [readNumber, readWhole_digits _ h, readFraction_of_ends h, readExponent_of_ends h, hvalue]
  · rw [decide_eq_false hneg] at hvalue
    unfold readNumber
    split
    rename_i negative cs hsplit
    split at hsplit
    · -- no digit is a minus
      rename_i heq
      obtain ⟨c, ds, hn⟩ :=
        List.exists_cons_of_ne_nil (Nat.toDigits_ne_nil (n := i.toInt.natAbs) (b := 10))
      have hc := isDigit_toDigits i.toInt.natAbs c (by rw [hn]; exact List.mem_cons_self)
      rw [hn] at heq
      obtain ⟨rfl, -⟩ := List.cons.inj heq
      cases hc
    · obtain ⟨rfl, rfl⟩ := Prod.mk.inj hsplit
      simp [readWhole_digits _ h, readFraction_of_ends h, readExponent_of_ends h, hvalue]

-- ---------------------------------------------------------------------------
-- Strings
-- ---------------------------------------------------------------------------

theorem bind_readCharacters (c : Char) (cs : List Char) :
    ((readCharacters cs).bind fun p => some (c :: p.1, p.2)) =
      (readCharacters cs).map fun (text, rest) => (c :: text, rest) := by
  cases readCharacters cs <;> rfl

theorem readCharacters_letter {letter c : Char} (hu : letter ≠ 'u') (h : escaped? letter = some c)
    (cs : List Char) : readCharacters ('\\' :: letter :: cs) =
      (readCharacters cs).map fun (text, rest) => (c :: text, rest) := by
  rw [readCharacters, h, ← bind_readCharacters]
  · rfl
  · exact fun _ _ _ _ _ he => absurd he hu

theorem hexFour?_control :
    ∀ n < 0x20, hexFour? '0' '0' (hexDigit (n / 16)) (hexDigit (n % 16)) = some n := by
  decide

theorem readCharacters_control {c : Char} (h : c.toNat < 0x20) (cs : List Char) :
    readCharacters
        ('\\' :: 'u' :: '0' :: '0' :: hexDigit (c.toNat / 16) :: hexDigit (c.toNat % 16) :: cs) =
      (readCharacters cs).map fun (text, rest) => (c :: text, rest) := by
  have hlow : isLowUnit c.toNat = false := by
    simp only [isLowUnit, Bool.and_eq_false_iff, decide_eq_false_iff_not]
    omega
  have hhigh : isHighUnit c.toNat = false := by
    simp only [isHighUnit, Bool.and_eq_false_iff, decide_eq_false_iff_not]
    omega
  rw [readCharacters, hexFour?_control _ h, ← bind_readCharacters]
  simp [hlow, hhigh, Char.ofNat_toNat]

theorem readCharacters_plain {c : Char} (hquote : c ≠ '"') (hslash : c ≠ '\\')
    (h : ¬ c.toNat < 0x20) (cs : List Char) : readCharacters (c :: cs) =
      (readCharacters cs).map fun (text, rest) => (c :: text, rest) := by
  rw [readCharacters, if_neg (by simp [hslash, h]), ← bind_readCharacters]
  · rfl
  · exact hquote
  · exact fun _ _ _ _ _ hc _ => hslash hc
  · exact fun _ _ hc _ => hslash hc

theorem readCharacters_escape (c : Char) (cs : List Char) :
    readCharacters (escape c ++ cs) = (readCharacters cs).map fun (text, rest) =>
      (c :: text, rest) := by
  unfold escape
  split
  · subst_vars; exact readCharacters_letter (by decide) rfl cs
  split
  · subst_vars; exact readCharacters_letter (by decide) rfl cs
  split
  · subst_vars; exact readCharacters_letter (by decide) rfl cs
  split
  · subst_vars; exact readCharacters_letter (by decide) rfl cs
  split
  · subst_vars; exact readCharacters_letter (by decide) rfl cs
  split
  · subst_vars; exact readCharacters_letter (by decide) rfl cs
  split
  · subst_vars; exact readCharacters_letter (by decide) rfl cs
  split
  · rename_i h
    exact readCharacters_control h cs
  · rename_i hquote hslash _ _ _ _ _ h
    exact readCharacters_plain hquote hslash h cs

theorem readCharacters_escaped (text rest : List Char) :
    readCharacters (text.flatMap escape ++ '"' :: rest) = some (text, rest) := by
  induction text with
  | nil => rfl
  | cons c text ih =>
    rw [List.flatMap_cons, List.append_assoc, readCharacters_escape, ih]
    rfl

theorem writeString_append (s : String) (rest : List Char) :
    writeString s ++ rest = '"' :: (s.toList.flatMap escape ++ '"' :: rest) := by
  simp [writeString]

end Json

end DocSelect
