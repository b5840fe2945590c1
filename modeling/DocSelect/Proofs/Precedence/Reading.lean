import DocSelect.Proofs.Precedence.Leaf

/-!
# How operators are read

Operands with infix tokens between them are read by the binding powers of the tokens: the weakest of
them is the root, the rightmost one among equals, and the first assignment before all others.
`Reading` says this without a parser, and there is no second reading.
-/
namespace DocSelect

/-- An operand with at most one prefix token, which belongs to it before any infix token does. -/
inductive Operand where
  | plain (leaf : Leaf)
  | not (sign : Token) (h : sign.kind = .not) (leaf : Leaf)
  | minus (sign : Token) (h : sign.kind = .minus) (leaf : Leaf)

namespace Operand

def tokens : Operand → List Token
  | plain leaf => [leaf.token]
  | not sign _ leaf => [sign, leaf.token]
  | minus sign _ leaf => [sign, leaf.token]

def expr : Operand → Expr
  | plain leaf => leaf.expr
  | not _ _ leaf => .not leaf.expr
  | minus _ _ leaf => Parser.negated leaf.expr

end Operand

structure Infix where
  token : Token
  power : BindingPower
  binds : BindingPower.ofToken? token.kind = some power

def Infix.assigns? (o : Infix) : Option (Option BinaryOp) :=
  match o.token.kind with
  | .assign => some none
  | .incrementBy => some (some .add)
  | .decrementBy => some (some .subtract)
  | _ => none

/-- What goes on after an operand: infix tokens, each with its right operand. -/
abbrev Further := List (Infix × Operand)

def Further.tokens : Further → List Token
  | [] => []
  | (o, a) :: rest => o.token :: (a.tokens ++ tokens rest)

def Further.AssignFree (rest : Further) : Prop := ∀ x ∈ rest, x.1.assigns? = none

/-- The tree of an operand and what goes on after it. -/
inductive Reading : Operand → Further → Expr → Prop where
  | operand (a : Operand) : Reading a [] a.expr
  | assign {a b : Operand} {before after : Further} {o : Infix} {op : Option BinaryOp}
      {target value : Expr} (hbefore : before.AssignFree) (ho : o.assigns? = some op)
      (htarget : Reading a before target) (hvalue : Reading b after value) :
      Reading a (before ++ (o, b) :: after) (.assign target op value)
  | binary {a b : Operand} {before after : Further} {o : Infix} {op : BinaryOp} {left right : Expr}
      (hfree : Further.AssignFree (before ++ (o, b) :: after))
      (hbefore : ∀ x ∈ before, ¬ x.1.power < o.power)
        (hafter : ∀ x ∈ after, o.power < x.1.power)
      (ho : BinaryOp.ofToken? o.token.kind = some op)
      (hleft : Reading a before left) (hright : Reading b after right) :
      Reading a (before ++ (o, b) :: after) (.binary op left right)

/-- Two ways to take a list apart at an element: the same way, or each element stands on one side of
the other. -/
theorem Further.split_cases {before before' after after' : Further} {x x' : Infix × Operand}
    (h : before ++ x :: after = before' ++ x' :: after') :
    (before = before' ∧ x = x' ∧ after = after') ∨ (x ∈ before' ∧ x' ∈ after) ∨
      (x' ∈ before ∧ x ∈ after') := by
  rcases List.append_eq_append_iff.1 h with ⟨mid, rfl, hx⟩ | ⟨mid, rfl, hx⟩ <;>
    rcases mid with _ | ⟨y, mid⟩
  · obtain ⟨rfl, rfl⟩ := List.cons.inj hx
    exact .inl ⟨by simp, rfl, rfl⟩
  · obtain ⟨rfl, rfl⟩ := List.cons.inj hx
    exact .inr (.inl ⟨by simp, by simp⟩)
  · obtain ⟨rfl, rfl⟩ := List.cons.inj hx
    exact .inl ⟨by simp, rfl, rfl⟩
  · obtain ⟨rfl, rfl⟩ := List.cons.inj hx
    exact .inr (.inr ⟨by simp, by simp⟩)

theorem Reading.unique {a : Operand} {rest : Further} {e e' : Expr} (h : Reading a rest e)
    (h' : Reading a rest e') : e = e' := by
  induction h generalizing e' with
  | operand a =>
    generalize hr : ([] : Further) = rest at h'
    cases h' with
    | operand => rfl
    | assign => simp at hr
    | binary => simp at hr
  | @assign a b before after o op target value hbefore ho _ _ iht ihv =>
    generalize hr : before ++ (o, b) :: after = rest at h'
    cases h' with
    | operand => simp at hr
    | assign hbefore' ho' htarget' hvalue' =>
      rcases Further.split_cases hr with ⟨rfl, heq, rfl⟩ | ⟨hmem, -⟩ | ⟨hmem, -⟩
      · obtain ⟨rfl, rfl⟩ := Prod.mk.inj heq
        rw [ho, Option.some.injEq] at ho'
        rw [iht htarget', ihv hvalue', ho']
      · exact absurd ((hbefore' _ hmem).symm.trans ho) (by simp)
      · exact absurd ((hbefore _ hmem).symm.trans ho') (by simp)
    | binary hfree' =>
      have hnone := hfree' (o, b) (hr ▸ by simp)
      exact absurd (hnone.symm.trans ho) (by simp)
  | @binary a b before after o op left right hfree hbefore hafter ho _ _ ihl ihr =>
    generalize hr : before ++ (o, b) :: after = rest at h' hfree
    cases h' with
    | operand => simp at hr
    | assign hbefore' ho' =>
      have hnone := hfree _ (List.mem_append_right _ List.mem_cons_self)
      exact absurd (hnone.symm.trans ho') (by simp)
    | binary hfree' hbefore' hafter' ho' hleft' hright' =>
      -- of two roots each would bind more strongly than the other, or one stand before an equal
      rcases Further.split_cases hr with ⟨rfl, heq, rfl⟩ | ⟨hmem, hmem'⟩ | ⟨hmem, hmem'⟩
      · obtain ⟨rfl, rfl⟩ := Prod.mk.inj heq
        rw [ho, Option.some.injEq] at ho'
        rw [ihl hleft', ihr hright', ho']
      · exact absurd (hafter _ hmem') (hbefore' _ hmem)
      · exact absurd (hafter' _ hmem') (hbefore _ hmem)

theorem Reading.steps_eq {a : Operand} {rest : Further} {e : Expr} (h : Reading a rest e) :
    e.steps = [e] := by
  cases h with
  | operand =>
    cases a with
    | plain leaf => exact leaf.steps_expr
    | not => rfl
    | minus _ _ leaf => exact Parser.steps_negated leaf.expr
  | assign => rfl
  | binary => rfl

end DocSelect
