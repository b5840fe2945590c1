import DocSelect.Expr.Parser

/-!
# Running parsers

What a parser does from a place on, as equations, and a triple for parsers that may only fail
because expressions nest too deep.
-/
namespace DocSelect

namespace Cursor

variable {c : Cursor} {t u : Token} {ts : List Token}

theorem current_of_toList (h : c.toList = t :: ts) : c.current = t := (List.cons.inj h).1

theorem kind_advance (c : Cursor) : c.advance.kind = c.nextKind := by
  unfold Cursor.advance Cursor.nextKind
  split <;> rename_i hrest <;> rw [hrest] <;> rfl

end Cursor

namespace Parser

variable {α β : Type}

/-- The outcome of a parser at a place, and the place reached. -/
def exec (x : Parser α) (c : Cursor) : Except ParseError α × Cursor := x.run.run c

@[simp] theorem exec_pure (a : α) (c : Cursor) : exec (pure a) c = (.ok a, c) := rfl

@[simp] theorem exec_throw (e : ParseError) (c : Cursor) :
    exec (throw e : Parser α) c = (.error e, c) := rfl

theorem exec_bind (x : Parser α) (f : α → Parser β) (c : Cursor) :
    (x >>= f).exec c =
      match x.exec c with
      | (.ok r, c) => (f r).exec c
      | (.error e, c) => (.error e, c) := by
  simp only [exec, ExceptT.run_bind, StateT.run_bind]
  rcases h : StateT.run (ExceptT.run x) c with ⟨_ | _, _⟩ <;> rfl

theorem exec_bind_eq_ok_iff {x : Parser α} {f : α → Parser β} {c c' : Cursor} {r : β} :
    (x >>= f).exec c = (.ok r, c') ↔
      ∃ a c₁, x.exec c = (.ok a, c₁) ∧ (f a).exec c₁ = (.ok r, c') := by
  rw [exec_bind]
  rcases x.exec c with ⟨e | a, c₁⟩
  · simp
  · exact ⟨fun h => ⟨a, c₁, rfl, h⟩, by rintro ⟨_, _, ⟨⟩, h⟩; exact h⟩

@[simp] theorem exec_current (c : Cursor) : current.exec c = (.ok c.current, c) := rfl

@[simp] theorem exec_kind (c : Cursor) : kind.exec c = (.ok c.kind, c) := rfl

@[simp] theorem exec_nextKind (c : Cursor) : nextKind.exec c = (.ok c.nextKind, c) := rfl

@[simp] theorem exec_rounds (c : Cursor) : rounds.exec c = (.ok (c.rest.length + 1), c) := rfl

@[simp] theorem exec_advance (c : Cursor) : advance.exec c = (.ok (), c.advance) := rfl

@[simp] theorem exec_tooDeep (c : Cursor) :
    (tooDeep : Parser α).exec c = (.error (.tooDeep maxDepth c.current.position), c) := rfl

theorem exec_expect {c : Cursor} {k : TokenKind} (h : c.kind = k) :
    (expect k).exec c = (.ok (), c.advance) := by
  show exec (if c.kind = k then advance else unexpected) c = _
  rw [if_pos h, exec_advance]

theorem exec_expect_of_ne {c : Cursor} {k : TokenKind} (h : c.kind ≠ k) :
    (expect k).exec c = (.error (.unexpected c.current), c) := by
  show exec (if c.kind = k then advance else unexpected) c = _
  rw [if_neg h]
  rfl

/-- From a place on a parser gives a result and reaches a place as `Q` says, or it finds that
expressions nest too deep, which happens only where `deep` holds. -/
def Yields (deep : Prop) (x : Parser α) (c : Cursor) (Q : α → Cursor → Prop) : Prop :=
  match x.exec c with
  | (.ok r, c') => Q r c'
  | (.error e, _) => deep ∧ ∃ position, e = .tooDeep maxDepth position

namespace Yields

variable {deep deep' : Prop} {x : Parser α} {c c' : Cursor} {Q Q' : α → Cursor → Prop}

theorem of_exec {r : α} (h : x.exec c = (.ok r, c')) (hQ : Q r c') : Yields deep x c Q := by
  unfold Yields
  rw [h]
  exact hQ

theorem pure {r : α} (hQ : Q r c) : Yields deep (pure r) c Q := of_exec rfl hQ

theorem tooDeep (h : deep) : Yields deep (tooDeep : Parser α) c Q := ⟨h, _, rfl⟩

theorem mono (h : Yields deep x c Q) (hdeep : deep → deep') (hQ : ∀ r c', Q r c' → Q' r c') :
    Yields deep' x c Q' := by
  unfold Yields at h ⊢
  rcases hx : x.exec c with ⟨e | r, c'⟩ <;> rw [hx] at h
  · exact ⟨hdeep h.1, h.2⟩
  · exact hQ r c' h

theorem bind {f : α → Parser β} {S : β → Cursor → Prop} (h : Yields deep x c Q)
    (hf : ∀ r c', Q r c' → Yields deep (f r) c' S) : Yields deep (x >>= f) c S := by
  unfold Yields at h
  unfold Yields
  rw [exec_bind]
  rcases hx : x.exec c with ⟨e | r, c'⟩ <;> rw [hx] at h
  · exact h
  · exact hf r c' h

theorem bind_exec {f : α → Parser β} {S : β → Cursor → Prop} {r : α}
    (h : x.exec c = (.ok r, c')) (hf : Yields deep (f r) c' S) : Yields deep (x >>= f) c S :=
  bind (Q := fun r' c'' => r' = r ∧ c'' = c') (of_exec h ⟨rfl, rfl⟩)
    (by rintro _ _ ⟨rfl, rfl⟩; exact hf)

end Yields

end Parser

end DocSelect
