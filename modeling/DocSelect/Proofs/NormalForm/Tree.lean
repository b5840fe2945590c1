import DocSelect.Proofs.Joining.Production
import DocSelect.Proofs.Wrapping
import Mathlib.Algebra.Ring.Int.Defs

/-!
# Trees in normal form

What holds at every node of the tree of a selector is a condition on the node and its direct parts.
Chains are flat: a chain has at least two steps, and none of them is a chain. So a chain is taken
apart into its last step and those before it, and put together again, without a change.
-/
namespace DocSelect.Expr

def isChain : Expr → Bool
  | chain _ => true
  | _ => false

/-- An expression and, at any depth, the expressions in it. -/
inductive Part : Expr → Expr → Prop
  | self (e : Expr) : Part e e
  | under {e c p : Expr} (hc : c ∈ e.children) (h : Part c p) : Part e p

/-- What a node and its direct parts are like. Operators have no assignments as operands, and an
assignment is not the target of another one. -/
def Normal : Expr → Prop
  | integer i => -(2 ^ 63 - 1) ≤ i.toInt ∧ i.toInt ≤ 2 ^ 63 - 1
  | descend (.index i) => 0 ≤ i.toInt
  | binary _ left right => left.isAssign = false ∧ right.isAssign = false
  | not operand => operand.isAssign = false
  | assign target _ _ => target.isAssign = false
  | chain steps => 2 ≤ steps.length ∧ ∀ step ∈ steps, step.isChain = false
  | _ => True

def Tidy (e : Expr) : Prop := ∀ p, e.Part p → p.Normal

variable {e : Expr} {es : List Expr}

theorem tidy_iff : e.Tidy ↔ e.Normal ∧ ∀ c ∈ e.children, c.Tidy := by
  constructor
  · exact fun h => ⟨h e (.self e), fun c hc p hp => h p (.under hc hp)⟩
  · rintro ⟨hnormal, hchildren⟩ p hp
    cases hp with
    | self => exact hnormal
    | under hc hp => exact hchildren _ hc p hp

theorem tidy_leaf (hnormal : e.Normal) (hleaf : e.children = []) : e.Tidy :=
  tidy_iff.2 ⟨hnormal, fun _ hc => absurd (hleaf ▸ hc) List.not_mem_nil⟩

theorem Tidy.normal (h : e.Tidy) : e.Normal := (tidy_iff.1 h).1

theorem Tidy.child {c : Expr} (h : e.Tidy) (hc : c ∈ e.children) : c.Tidy := (tidy_iff.1 h).2 c hc

-- ---------------------------------------------------------------------------
-- Chains
-- ---------------------------------------------------------------------------

theorem exists_of_isChain (h : e.isChain = true) : ∃ steps, e = chain steps := by
  cases e <;> first | exact ⟨_, rfl⟩ | cases h

theorem steps_of_not_chain (h : e.isChain = false) : e.steps = [e] := by
  cases e <;> first | rfl | cases h

theorem flatMap_steps_of_not_chain (h : ∀ e ∈ es, e.isChain = false) : es.flatMap steps = es :=
  flatMap_steps fun e he => steps_of_not_chain (h e he)

theorem steps_chained (h : ∀ e ∈ es, e.isChain = false) : (chained es).steps = es := by
  unfold chained
  rw [flatMap_steps_of_not_chain h]
  split
  · exact steps_of_not_chain (h _ List.mem_cons_self)
  · rfl

/-- What an expression in normal form adds to a chain is in normal form and no chain. -/
theorem Tidy.of_mem_steps (h : e.Tidy) :
    ∀ step ∈ e.steps, step.Tidy ∧ step.isChain = false := by
  cases hchain : e.isChain with
  | false =>
    rw [steps_of_not_chain hchain, List.forall_mem_singleton]
    exact ⟨h, hchain⟩
  | true =>
    obtain ⟨steps, rfl⟩ := exists_of_isChain hchain
    exact fun step hstep => ⟨h.child hstep, h.normal.2 step hstep⟩

theorem Tidy.steps_ne_nil (h : e.Tidy) : e.steps ≠ [] := by
  cases hchain : e.isChain with
  | false =>
    rw [steps_of_not_chain hchain]
    exact List.cons_ne_nil _ _
  | true =>
    obtain ⟨steps, rfl⟩ := exists_of_isChain hchain
    exact List.ne_nil_of_length_pos (Nat.lt_of_lt_of_le Nat.two_pos h.normal.1)

theorem tidy_chained (hne : es ≠ []) (h : ∀ e ∈ es, e.Tidy) : (chained es).Tidy := by
  have hsteps : ∀ step ∈ es.flatMap steps, step.Tidy ∧ step.isChain = false :=
    fun step hstep =>
    let ⟨e, he, hstep⟩ := List.mem_flatMap.1 hstep
    (h e he).of_mem_steps step hstep
  have hfilled : es.flatMap steps ≠ [] := by
    obtain ⟨e, es', rfl⟩ := List.exists_cons_of_ne_nil hne
    rw [List.flatMap_cons]
    exact List.append_ne_nil_of_left_ne_nil (h e List.mem_cons_self).steps_ne_nil _
  unfold chained
  split
  · rename_i hone
    exact (hsteps _ (hone ▸ List.mem_cons_self)).1
  · rename_i hmany
    have hlength : 2 ≤ (es.flatMap steps).length := by
      rcases hflat : es.flatMap steps with _ | ⟨e, _ | ⟨e', flat⟩⟩
      · exact absurd hflat hfilled
      · exact absurd hflat (hmany e)
      · exact Nat.le_add_left _ _
    exact tidy_iff.2 ⟨⟨hlength, fun step hstep => (hsteps step hstep).2⟩,
      fun c hc => (hsteps c hc).1⟩

theorem chained_dropLast?_last {steps : List Expr} (h : (chain steps).Normal) :
    ∃ rest, (chain steps).dropLast? = some rest ∧
      chained [rest, (chain steps).last] = chain steps := by
  obtain ⟨hlength, hflat⟩ := h
  obtain ⟨before, final, rfl⟩ : ∃ before final, steps = before ++ [final] :=
    List.eq_nil_or_concat' steps |>.resolve_left (by rintro rfl; simp at hlength)
  have hbefore : before ≠ [] := by rintro rfl; simp at hlength
  have hlast : (chain (before ++ [final])).last = final := by simp [last]
  have hdrop : (chain (before ++ [final])).dropLast? = some (chained before) := by
    obtain ⟨first, before, rfl⟩ := List.exists_cons_of_ne_nil hbefore
    simp only [dropLast?, List.dropLast_concat]
  refine ⟨chained before, hdrop, ?_⟩
  have hsteps : [chained before, final].flatMap Expr.steps = before ++ [final] := by
    have hinit := steps_chained fun e he => hflat e (List.mem_append_left _ he)
    have hfinal := steps_of_not_chain (hflat final (List.mem_append_right _ List.mem_cons_self))
    simp only [List.flatMap_cons, List.flatMap_nil, hinit, hfinal, List.append_nil]
  rw [hlast]
  unfold chained at hsteps ⊢
  rw [hsteps]
  split
  · rename_i hone
    rw [hone] at hlength
    simp at hlength
  · rfl

theorem Tidy.dropLast? {rest : Expr} (h : e.Tidy) (hd : e.dropLast? = some rest) : rest.Tidy := by
  unfold Expr.dropLast? at hd
  split at hd
  · rename_i steps
    split at hd
    · cases hd
    · rename_i hne
      obtain rfl := Option.some.inj hd
      exact tidy_chained hne fun step hstep => h.child (List.dropLast_subset _ hstep)
  · cases hd

end DocSelect.Expr
