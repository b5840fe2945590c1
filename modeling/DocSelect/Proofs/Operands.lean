import DocSelect.Proofs.Comparing

/-!
# Operands of the wrong kind

Which kinds of operands an operator combines is settled before it looks at what they hold: all kinds
for equality, booleans for the logical operators, numbers for arithmetic, and two numbers or two
texts for addition and for order. The order of the operands does not matter. There is one exception,
the logical operators do not look at the right operand where the left one decides, so that an
operand of the wrong kind passes there.
-/
namespace DocSelect

-- ---------------------------------------------------------------------------
-- The kinds that an operator combines
-- ---------------------------------------------------------------------------

namespace Kind

def numeric (a b : Kind) : Bool := a.isNumeric && b.isNumeric

def comparable (a b : Kind) : Bool := a.numeric b || (a == .string && b == .string)

end Kind

namespace BinaryOp

/-- Whether the operator combines operands of these kinds; one that combines no operands has nothing
to say about them. -/
def takes (op : BinaryOp) (a b : Kind) : Bool :=
  match op with
  | .and | .or => a == .bool && b == .bool
  | .add | .less | .lessEqual | .greater | .greaterEqual => a.comparable b
  | .subtract | .multiply | .divide | .modulo => a.numeric b
  | .equal | .notEqual | .like | .notLike | .coalesce => true

theorem takes_comm (op : BinaryOp) (a b : Kind) : op.takes a b = op.takes b a := by
  cases op <;> simp only [takes, Kind.comparable, Kind.numeric, Bool.and_comm]

end BinaryOp

namespace ValueError

def isMismatch : ValueError → Bool
  | unexpectedKind .. | incompatibleKinds .. => true
  | keyNotFound _ | indexOutOfRange .. | divisionByZero | integerOverflow => false

/-- Whether an operation on values fails for the kind of an operand. -/
def mismatched {α : Type} : Except ValueError α → Bool
  | .error e => e.isMismatch
  | .ok _ => false

variable {α β : Type}

theorem mismatched_map (f : α → β) (x : Except ValueError α) :
    mismatched (x.map f) = mismatched x := by
  cases x <;> rfl

/-- What is done with the result of an operation does not count if it cannot fail for a kind. -/
theorem mismatched_bind {f : α → Except ValueError β} (hf : ∀ a, mismatched (f a) = false)
    (x : Except ValueError α) : mismatched (x >>= f) = mismatched x := by
  cases x with
  | error e => rfl
  | ok a => exact hf a

theorem mismatched_return (f : α → β) (x : Except ValueError α) :
    mismatched (do return f (← x)) = mismatched x :=
  mismatched_bind (fun _ => rfl) x

end ValueError

open ValueError (mismatched mismatched_map mismatched_bind mismatched_return)

-- ---------------------------------------------------------------------------
-- The checks of the operators
-- ---------------------------------------------------------------------------

namespace Arithmetic

theorem ints_mismatched (op : Arithmetic) (a b : Int64) : mismatched (op.ints a b) = false := by
  unfold ints
  split
  · rfl
  · split <;> rfl

theorem floats_mismatched (op : Arithmetic) (a b : Numeral) :
    mismatched (op.floats a b) = false := by
  unfold floats
  split
  · rfl
  · dsimp only
    split <;> rfl

/-- The kinds of operands that an arithmetic operation combines. -/
def takes (op : Arithmetic) (a b : Kind) : Bool :=
  if op = add then a.comparable b else a.numeric b

/-- Only a number with a number, or a text to be joined with a text, gets past the check of the
kinds. -/
theorem scalars_mismatched (op : Arithmetic) (a b : Scalar) :
    mismatched (op.scalars a b) = !op.takes a.kind b.kind := by
  have hints (i j : Int64) : mismatched (do return Scalar.int (← op.ints i j)) = false :=
    (mismatched_return _ _).trans (op.ints_mismatched i j)
  have hfloats (x y : Numeral) : mismatched (do return Scalar.float (← op.floats x y)) = false :=
    (mismatched_return _ _).trans (op.floats_mismatched x y)
  have hnumeric (h : a.kind.numeric b.kind = true) : (!op.takes a.kind b.kind) = false := by
    simp [takes, Kind.comparable, h]
  cases a <;> cases b
  case int.int i j => exact (hints i j).trans (hnumeric rfl).symm
  case int.float i y => exact (hfloats (.int i) (.float y)).trans (hnumeric rfl).symm
  case float.int x j => exact (hfloats (.float x) (.int j)).trans (hnumeric rfl).symm
  case float.float x y => exact (hfloats (.float x) (.float y)).trans (hnumeric rfl).symm
  all_goals cases op <;> rfl

end Arithmetic

namespace Store

variable (s : Store) (a b : Ref)

theorem arithmetic?_mismatched (op : Arithmetic) :
    mismatched (s.arithmetic? op a b) = !op.takes (s.kind a) (s.kind b) := by
  unfold arithmetic? kind
  cases s.data a with
  | scalar x =>
    cases s.data b with
    | scalar y => exact op.scalars_mismatched x y
    | slice | map => cases x <;> cases op <;> rfl
  | slice | map => cases op <;> rfl

theorem relation?_mismatched :
    mismatched (s.relation? a b) = !(s.kind a).comparable (s.kind b) := by
  show mismatched (if (s.kind a).comparable (s.kind b) then _ else _) = _
  cases (s.kind a).comparable (s.kind b) <;> rfl

def holds (r : Ref) (b : Bool) : Bool :=
  match s.data r with
  | .scalar (.bool c) => c == b
  | _ => false

theorem bool?_cases (r : Ref) :
    (∃ c, s.bool? r = .ok c ∧ s.kind r = .bool ∧ ∀ b, s.holds r b = (c == b)) ∨
      s.bool? r = .error (.unexpectedKind .bool (s.kind r)) ∧ s.kind r ≠ .bool ∧
      ∀ b, s.holds r b = false := by
  unfold bool? unexpected kind holds
  cases s.data r with
  | scalar x =>
    cases x with
    | bool c => exact .inl ⟨c, rfl, rfl, fun _ => rfl⟩
    | null | int | float | string => exact .inr ⟨rfl, nofun, fun _ => rfl⟩
  | slice | map => exact .inr ⟨rfl, nofun, fun _ => rfl⟩

theorem bool?_mismatched (r : Ref) : mismatched (s.bool? r) = !(s.kind r == .bool) := by
  rcases s.bool?_cases r with ⟨c, hc, hk, -⟩ | ⟨he, hk, -⟩
  · rw [hc, hk]
    rfl
  · rw [he, beq_eq_false_iff_ne.2 hk]
    rfl

theorem logic?_mismatched (decisive : Bool) :
    mismatched (s.logic? decisive a b) =
      !((s.kind a == .bool && s.kind b == .bool) || s.holds a decisive) := by
  unfold logic?
  rcases s.bool?_cases a with ⟨c, hc, hk, hholds⟩ | ⟨he, hk, hholds⟩
  · rw [hc, hk, hholds]
    show mismatched (if c = decisive then .ok decisive else s.bool? b) = _
    by_cases hdecides : c = decisive
    · rw [if_pos hdecides, beq_iff_eq.2 hdecides, Bool.or_true]
      rfl
    · rw [if_neg hdecides, bool?_mismatched, beq_eq_false_iff_ne.2 hdecides, Bool.or_false,
        beq_self_eq_true, Bool.true_and]
  · rw [he, beq_eq_false_iff_ne.2 hk, hholds]
    rfl

theorem logic?_of_holds {s : Store} {a : Ref} (b : Ref) {decisive : Bool}
    (h : s.holds a decisive = true) : s.logic? decisive a b = .ok decisive := by
  rcases s.bool?_cases a with ⟨c, hc, -, hholds⟩ | ⟨-, -, hholds⟩
  · have hdecides : c = decisive := eq_of_beq ((hholds decisive).symm.trans h)
    rw [logic?, hc]
    exact if_pos hdecides
  · cases (hholds decisive).symm.trans h

end Store

-- ---------------------------------------------------------------------------
-- The operators
-- ---------------------------------------------------------------------------

namespace EvalError

/-- Whether the kind of an operand is what an operator fails for. -/
def mismatched {α : Type} : Except EvalError α → Bool
  | .error (.value e) => e.isMismatch
  | _ => false

theorem mismatched_value {α : Type} (x : Except ValueError α) :
    mismatched (x.mapError EvalError.value) = ValueError.mismatched x := by
  cases x <;> rfl

end EvalError

/-- The boolean that a logical operator answers with as soon as the left operand holds it. -/
def BinaryOp.decisive? : BinaryOp → Option Bool
  | .and => some false
  | .or => some true
  | _ => none

namespace Store

/-- Whether the left operand alone decides what the operator answers. -/
def decides (s : Store) (op : BinaryOp) (a : Ref) : Bool := op.decisive?.any (s.holds a)

theorem operate?_of_decides {s : Store} {op : BinaryOp} {a : Ref} (b : Ref)
    (h : s.decides op a = true) :
    ∃ d, op.decisive? = some d ∧ s.operate? op a b = .ok (.bool d) := by
  cases op
  case and => exact ⟨false, rfl, by rw [operate?, logic?_of_holds b h]; rfl⟩
  case or => exact ⟨true, rfl, by rw [operate?, logic?_of_holds b h]; rfl⟩
  all_goals cases h

variable (s : Store) (a b : Ref)

/-- The answer to a relation is read off the order, which is there if the kinds can be compared. -/
theorem relation?_answer_mismatched (answer : Ordering → Bool) :
    EvalError.mismatched
        (((do return answer (← s.relation? a b)).map Scalar.bool).mapError EvalError.value) =
      !(s.kind a).comparable (s.kind b) := by
  rw [EvalError.mismatched_value, mismatched_map, mismatched_return, relation?_mismatched]

theorem logic?_answer_mismatched (decisive : Bool) :
    EvalError.mismatched (((s.logic? decisive a b).map Scalar.bool).mapError EvalError.value) =
      !((s.kind a == .bool && s.kind b == .bool) || s.holds a decisive) := by
  rw [EvalError.mismatched_value, mismatched_map, logic?_mismatched]

theorem arithmetic?_answer_mismatched (op : Arithmetic) :
    EvalError.mismatched ((s.arithmetic? op a b).mapError EvalError.value) =
      !op.takes (s.kind a) (s.kind b) := by
  rw [EvalError.mismatched_value, arithmetic?_mismatched]

theorem operate?_mismatched (op : BinaryOp) :
    EvalError.mismatched (s.operate? op a b) =
      !(op.takes (s.kind a) (s.kind b) || s.decides op a) := by
  cases op
  case equal | notEqual | like | notLike | coalesce => rfl
  case and => exact s.logic?_answer_mismatched a b false
  case or => exact s.logic?_answer_mismatched a b true
  all_goals refine Eq.trans ?_ (congrArg not (Bool.or_false _).symm)
  case less | lessEqual | greater | greaterEqual => exact s.relation?_answer_mismatched a b _
  case add => exact s.arithmetic?_answer_mismatched a b .add
  case subtract => exact s.arithmetic?_answer_mismatched a b .subtract
  case multiply => exact s.arithmetic?_answer_mismatched a b .multiply
  case divide => exact s.arithmetic?_answer_mismatched a b .divide
  case modulo => exact s.arithmetic?_answer_mismatched a b .modulo

end Store

/-- Whether an operator fails for the kind of an operand can be read off the two kinds, in either
order, unless it is a logical one whose left operand decides. That one answers, whatever the right
operand is. -/
theorem operands_of_kind (s : Store) (op : BinaryOp) (a b : Ref) :
    EvalError.mismatched (s.operate? op a b) =
      !(op.takes (s.kind a) (s.kind b) || s.decides op a) ∧
      op.takes (s.kind a) (s.kind b) = op.takes (s.kind b) (s.kind a) ∧
      (s.decides op a = true → ∃ d, op.decisive? = some d ∧
        s.operate? op a b = .ok (.bool d)) :=
  ⟨s.operate?_mismatched a b op, op.takes_comm _ _, Store.operate?_of_decides b⟩

/-- The document is `[false, true, 1]`. The conjunction of the second and the third element fails
for a kind; that of the first and the third does not, although the first is a boolean as well, and
fails in the other order. -/
theorem mismatch_depends_on_content :
    let s := (Session.start (.slice [.bool false, .bool true, .int 1]) []).2.store
    s.kind ⟨0⟩ = s.kind ⟨1⟩ ∧
      EvalError.mismatched (s.operate? .and ⟨1⟩ ⟨2⟩) = true ∧
      EvalError.mismatched (s.operate? .and ⟨0⟩ ⟨2⟩) = false ∧
      EvalError.mismatched (s.operate? .and ⟨2⟩ ⟨0⟩) = true := by
  decide +kernel

end DocSelect
