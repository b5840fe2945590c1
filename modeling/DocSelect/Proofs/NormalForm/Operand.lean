import DocSelect.Proofs.Literals
import DocSelect.Proofs.NormalForm.Tree

/-!
# Operands in normal form

What the parser may find as an operand, after a minus, and as a step of a chain. Numbers are as the
lexer takes them, without a sign, so that each can get one.
-/
namespace DocSelect

-- ---------------------------------------------------------------------------
-- Numbers
-- ---------------------------------------------------------------------------

theorem nonneg_of_readInt64? {s : String} {c : Char} {cs : List Char} {i : Int64}
    (hs : s.toList = c :: cs) (hc : c.isDigit = true) (h : readInt64? s = some i) :
    0 ≤ i.toInt := by
  unfold readInt64? at h
  rw [hs, splitSign_of_isDigit hc] at h
  dsimp only at h
  split at h
  · cases h
  · rw [int64?_eq_some_iff.1 h, if_neg Bool.false_ne_true]
    exact Int.natCast_nonneg _

theorem NumberText.exists_digit {cs : List Char} (h : NumberText cs) :
    ∃ c ds, cs = c :: ds ∧ c.isDigit = true := by
  obtain ⟨whole, fraction, mark, rfl, hne, hwhole, -, -⟩ := h
  obtain ⟨c, ds, rfl⟩ := List.exists_cons_of_ne_nil hne
  exact ⟨c, ds ++ fraction ++ mark, rfl, List.all_eq_true.1 hwhole c List.mem_cons_self⟩

theorem Parser.numberLiteral_cases {t : Token} {e : Expr} (ht : NumberText t.value.toList)
    (h : numberLiteral t = .ok e) :
    (∃ x, e = .float x) ∨ ∃ i, e = .integer i ∧ 0 ≤ i.toInt := by
  unfold numberLiteral at h
  dsimp only at h
  split at h
  · cases h
  split at h
  · split at h <;> cases h
    exact .inl ⟨_, rfl⟩
  split at h
  · split at h <;> cases h
    exact .inl ⟨_, rfl⟩
  · split at h <;> cases h
    rename_i hread
    obtain ⟨c, ds, hcs, hc⟩ := ht.exists_digit
    exact .inr ⟨_, rfl, nonneg_of_readInt64? hcs hc hread⟩

namespace Expr

variable {e : Expr} {i : Int64}

-- ---------------------------------------------------------------------------
-- Operands
-- ---------------------------------------------------------------------------

structure Plain (e : Expr) : Prop where
  tidy : e.Tidy
  not_assign : e.isAssign = false

structure Unsigned (e : Expr) : Prop extends Plain e where
  nonneg {i : Int64} : e = .integer i → 0 ≤ i.toInt

structure Single (e : Expr) : Prop extends Unsigned e where
  not_chain : e.isChain = false

def isOther : Expr → Bool
  | integer _ | assign .. | chain _ => false
  | _ => true

theorem Single.of_parts (hother : e.isOther = true) (hnormal : e.Normal)
    (hparts : ∀ c ∈ e.children, c.Tidy) : e.Single where
  tidy := tidy_iff.2 ⟨hnormal, hparts⟩
  not_assign := by cases e <;> first | rfl | cases hother
  nonneg hi := by
    subst hi
    cases hother
  not_chain := by cases e <;> first | rfl | cases hother

theorem Single.leaf (hother : e.isOther = true) (hnormal : e.Normal) (hleaf : e.children = []) :
    e.Single :=
  .of_parts hother hnormal (tidy_iff.1 (tidy_leaf hnormal hleaf)).2

theorem Single.integer (hi : 0 ≤ i.toInt) : (integer i).Single := by
  have hle := Int64.toInt_le i
  rw [Int64.toInt_maxValue] at hle
  have hnormal : (Expr.integer i).Normal := ⟨by omega, by omega⟩
  refine ⟨⟨⟨tidy_leaf hnormal rfl, rfl⟩, fun hj => ?_⟩, rfl⟩
  cases hj
  exact hi

theorem Single.numberLiteral {t : Token} (ht : NumberText t.value.toList)
    (h : Parser.numberLiteral t = .ok e) : e.Single := by
  rcases Parser.numberLiteral_cases ht h with ⟨x, rfl⟩ | ⟨i, rfl, hi⟩
  · exact .leaf rfl trivial rfl
  · exact .integer hi

theorem unsigned_chained {first : Expr} {further : List Expr} (hfirst : first.Single)
    (hfurther : ∀ e ∈ further, e.Single) : (chained (first :: further)).Unsigned := by
  have hall : ∀ e ∈ first :: further, e.Single := List.forall_mem_cons.2 ⟨hfirst, hfurther⟩
  have htidy := tidy_chained (List.cons_ne_nil first further) fun e he => (hall e he).tidy
  have hflat := flatMap_steps_of_not_chain fun e he => (hall e he).not_chain
  cases further with
  | nil =>
    rw [chained, hflat]
    exact hfirst.toUnsigned
  | cons second further =>
    rw [chained, hflat] at htidy ⊢
    exact ⟨⟨htidy, rfl⟩, fun hi => by cases hi⟩

-- ---------------------------------------------------------------------------
-- Signs
-- ---------------------------------------------------------------------------

theorem Unsigned.toInt_neg (h : (integer i).Unsigned) : (-i).toInt = -i.toInt := by
  refine toInt_neg_of_ne_minValue ?_
  rintro rfl
  exact absurd (h.nonneg rfl) (by decide)

theorem Unsigned.negated (h : e.Unsigned) : (Parser.negated e).Plain := by
  unfold Parser.negated
  split
  · rename_i i
    have hneg := h.toInt_neg
    have hnonneg := h.nonneg rfl
    obtain ⟨-, hle⟩ : (Expr.integer i).Normal := h.tidy.normal
    have hnormal : (Expr.integer (-i)).Normal := ⟨by omega, by omega⟩
    exact ⟨tidy_leaf hnormal rfl, rfl⟩
  · exact (Single.leaf (e := .float _) rfl trivial rfl).toPlain
  · have hzero : (Expr.integer 0).Single := .integer (by decide)
    have hnormal : (Expr.binary .subtract (.integer 0) e).Normal := ⟨rfl, h.not_assign⟩
    exact (Single.of_parts rfl hnormal
      (List.forall_mem_cons.2 ⟨hzero.tidy, List.forall_mem_singleton.2 h.tidy⟩)).toPlain

end Expr

end DocSelect
