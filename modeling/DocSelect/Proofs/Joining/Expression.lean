import DocSelect.Proofs.Joining.Production
import DocSelect.Proofs.Precedence.Climbing

/-!
# Expressions in another place

An expression that is all of its input has the same tree in every scope, in front of every token
that may end it there. The scopes on the way down are those of its own brackets, and only there does
the first input go on behind a semicolon.
-/
namespace DocSelect

open DocSelect.Parser

variable {d c₀ : Cursor} {nested₀ nested : Nested} {scope₀ scope : Scope}
  {power : BindingPower}

/-- An expression stands in the same brackets in both inputs, or the first input is all of it and
the second one goes on with a token that may end it. -/
def Scope.Becomes (d : Cursor) (scope₀ scope : Scope) : Prop :=
  (scope₀ = scope ∧ scope ≠ .root) ∨ (scope₀ = .root ∧ d.kind ∈ scope.terminators)

def Cursor.Between (scope₀ : Scope) (c : Cursor) : Prop :=
  scope₀ = .root ∧ c.kind = .semicolon

def Parser.Nested.MirroredIn (d : Cursor) (nested₀ nested : Nested) : Prop :=
  ∀ (scope₀ scope : Scope) (power : BindingPower) (c₀ : Cursor), scope₀.Becomes d scope →
    MirrorsUnless (·.Between scope₀) d (nested₀ scope₀ power)
      (nested scope power) c₀ fun e c₀' =>
      c₀'.rest.length < c₀.rest.length ∧ (scope₀ ≠ .root → c₀'.kind ≠ .eof) ∧
      Expr.chained [e] = e

/-- Nothing is taken where no infix token comes next that binds more strongly than was asked for. -/
theorem Parser.exec_folds_of_not_lt {c : Cursor}
    (h : ∀ p ∈ BindingPower.ofToken? c.kind, ¬ power < p) (levels : Nat) (left : Expr) :
    (folds nested scope power levels left).exec c = (.ok left, c) := by
  unfold folds
  rw [exec_bind, exec_kind]
  dsimp only
  split
  · rename_i p hp
    rw [if_neg (h p hp)]
    rfl
  · rfl

theorem Parser.exec_folds_of_semicolon {c : Cursor} (h : c.kind = .semicolon) (levels : Nat)
    (left : Expr) : (folds nested scope power levels left).exec c = (.ok left, c) :=
  exec_folds_of_not_lt (fun _ hp => by rw [h] at hp; cases hp) levels left

theorem Parser.cursor_of_expectEnd {c c' : Cursor} {u : Unit}
    (h : (expectEnd scope).exec c = (.ok u, c')) : c' = c := by
  obtain ⟨_, _, hlook, h⟩ := exec_bind_eq_ok_iff.1 h
  cases hlook
  split at h <;> cases h
  rfl

namespace Parser.Nested.MirroredIn

variable (hn : Nested.MirroredIn d nested₀ nested) (hscope : scope₀.Becomes d scope)
include hn

theorem mirrored : Nested.Mirrored d nested₀ nested :=
  fun scope power c₀ hne hc e c₀' hx _ => by
  obtain ⟨hc', hle, ⟨hlt, hend, -⟩, hg⟩ :=
    hn scope scope power c₀ (.inl ⟨rfl, hne⟩) hc e c₀' hx fun h => hne h.1
  exact ⟨hc', hle, ⟨hlt, hend hne⟩, hg⟩

include hscope

theorem operand (hd : d.kind.Ends) :
    MirrorsUnless (·.Between scope₀) d (operand nested₀ scope₀)
      (operand nested scope) c₀ fun e c₀' =>
      c₀'.rest.length < c₀.rest.length ∧ Expr.chained [e] = e := by
  have hchain {c₀ : Cursor} : Mirrors d (chain nested₀) (chain nested) c₀ fun e c₀' =>
      c₀'.rest.length < c₀.rest.length ∧ Expr.chained [e] = e := hn.mirrored.chain hd
  unfold Parser.operand
  refine .kind (fun hne => ?_) fun heof _ => ?_
  · split
    · refine .take hne fun hlt => (hn _ _ .unary _ hscope).map fun e c₁ hle _ => ?_
      exact ⟨Nat.lt_of_le_of_lt hle hlt, rfl⟩
    · refine .take hne fun hlt => .bind hchain fun e c₁ hle _ => ?_
      exact .pure ⟨Nat.lt_of_le_of_lt hle hlt, Expr.chained_single (steps_negated e)⟩
    · exact hchain.weaken
  · rcases hd.cases with h | h | h | h | h | h | h <;> rw [h] <;> exact hchain.weaken

theorem fold (left : Expr) (p : BindingPower) (hne : c₀.kind ≠ .eof) :
    MirrorsUnless (·.Between scope₀) d (fold nested₀ scope₀ left p)
      (fold nested scope left p) c₀
      fun e c₀' => c₀'.rest.length < c₀.rest.length ∧ Expr.chained [e] = e := by
  unfold Parser.fold
  refine .current (fun hne u hkind hvalue => ?_) fun heof _ => absurd heof hne
  rw [hkind]
  refine .take hne fun hlt => ?_
  have hright {f : Expr → Expr} (power : BindingPower) (hf : ∀ e, (f e).steps = [f e]) :
      MirrorsUnless (·.Between scope₀) d (do return f (← nested₀ scope₀ power))
        (do return f (← nested scope power)) c₀.advance fun e c₀' =>
          c₀'.rest.length < c₀.rest.length ∧ Expr.chained [e] = e :=
    (hn _ _ power _ hscope).map fun e c₁ hle _ =>
      ⟨Nat.lt_of_le_of_lt hle hlt, Expr.chained_single (hf e)⟩
  split
  · exact hright .default fun _ => rfl
  · exact hright .default fun _ => rfl
  · exact hright .default fun _ => rfl
  · split
    · exact hright p fun _ => rfl
    · exact .throw _

theorem folds (hd : d.kind.Ends) (power : BindingPower) (levels₀ levels : Nat) {left : Expr}
    (hleft : Expr.chained [left] = left) :
    MirrorsUnless (·.Between scope₀) d (folds nested₀ scope₀ power levels₀ left)
      (folds nested scope power levels left) c₀ fun e _ => Expr.chained [e] = e := by
  induction levels₀ generalizing levels c₀ left with
  | zero =>
    unfold Parser.folds
    refine .kind (fun _ => ?_) fun _ _ => ?_
    · split
      · split
        · exact .tooDeep
        · exact .pure hleft
      · exact .pure hleft
    · rcases hd.cases with h | h | h | h | h | h | h <;> rw [h] <;> exact .pure hleft
  | succ levels₀ ih =>
    have hmore {p : BindingPower} (hne : c₀.kind ≠ .eof) (levels : Nat) :
        MirrorsUnless (·.Between scope₀) d
          (Parser.fold nested₀ scope₀ left p >>= Parser.folds nested₀ scope₀ power levels₀)
          (Parser.fold nested scope left p >>= Parser.folds nested scope power levels) c₀
          fun e _ => Expr.chained [e] = e := by
      refine .bind_unless (hn.fold hscope left p hne) (fun e c₁ e' c₀' hbetween h => ?_) ?_
      · rw [exec_folds_of_semicolon hbetween.2] at h
        cases h
        exact hbetween
      · exact fun e c₁ _ he => ih levels he.2
    unfold Parser.folds
    refine .kind (fun hne => ?_) fun _ _ => ?_
    · split
      · split
        · cases levels with
          | zero => exact (hmore hne 0).tooDeep_right
          | succ levels => exact hmore hne levels
        · exact .pure hleft
      · exact .pure hleft
    · rcases hd.cases with h | h | h | h | h | h | h <;> rw [h] <;> exact .pure hleft

omit hn in
theorem expectEnd :
    MirrorsUnless (·.Between scope₀) d (expectEnd scope₀) (expectEnd scope) c₀ fun _ c₀' =>
      scope₀ ≠ .root → c₀'.kind ≠ .eof := by
  unfold Parser.expectEnd
  refine .kind (fun hne => ?_) fun heof _ => ?_
  · split
    · rename_i h
      rcases hscope with ⟨rfl, -⟩ | ⟨rfl, -⟩
      · rw [if_pos h]
        exact .pure fun _ => hne
      · by_cases hsemicolon : c₀.kind = .semicolon
        · exact fun _ _ _ hx hno => by cases hx; exact absurd ⟨rfl, hsemicolon⟩ hno
        · rw [if_pos (.inr (h.resolve_left (by simp [Scope.terminators, hne, hsemicolon])))]
          exact .pure fun _ => hne
    · exact .unexpected
  · rcases hscope with ⟨rfl, hroot⟩ | ⟨rfl, hmem⟩
    · have hno :
          ¬ (.eof ∈ scope₀.terminators ∨ (BindingPower.ofToken? .eof).isSome = true) := by
        cases scope₀ <;> first | exact absurd rfl hroot | decide
      rw [if_neg hno]
      exact .unexpected
    · rw [if_pos (.inl (by decide)), if_pos (.inl hmem)]
      exact .pure fun h => absurd rfl h

end Parser.Nested.MirroredIn

theorem Parser.expression_mirroredIn (hd : d.kind.Ends) (levels₀ levels : Nat) :
    Nested.MirroredIn d (expression levels₀) (expression levels) := by
  induction levels₀ generalizing levels with
  | zero => exact fun _ _ _ _ _ => .tooDeep
  | succ levels₀ ih =>
    intro scope₀ scope power c₀ hscope
    have hsucc (levels : Nat) :
        MirrorsUnless (·.Between scope₀) d (expression (levels₀ + 1) scope₀ power)
          (expression (levels + 1) scope power) c₀ fun e c₀' => c₀'.rest.length <
            c₀.rest.length ∧
            (scope₀ ≠ .root → c₀'.kind ≠ .eof) ∧ Expr.chained [e] = e := by
      have hn := ih levels
      unfold Parser.expression
      -- behind a semicolon nothing more is taken
      have hends {e e' : Expr} {c₁ c₀' : Cursor} (hbetween : c₁.Between scope₀)
          (h : (do Parser.expectEnd scope₀; return e : Parser Expr).exec c₁ = (.ok e', c₀')) :
          c₀'.Between scope₀ := by
        obtain ⟨_, _, hexpect, h⟩ := exec_bind_eq_ok_iff.1 h
        cases h
        exact cursor_of_expectEnd hexpect ▸ hbetween
      refine .bind_unless (hn.operand hscope hd) (fun left c₁ e c₀' hbetween h => ?_)
        fun left c₁ hle hleft => ?_
      · obtain ⟨_, _, hfolds, h⟩ := exec_bind_eq_ok_iff.1 h
        rw [exec_folds_of_semicolon hbetween.2] at hfolds
        cases hfolds
        exact hends hbetween h
      refine .bind_unless (hn.folds hscope hd power levels₀ levels hleft.2)
        (fun _ _ _ _ => hends) fun e c₂ hle₂ he => ?_
      refine (Nested.MirroredIn.expectEnd hscope).map fun _ c₃ hle₃ hend => ?_
      exact ⟨by omega, hend, he⟩
    cases levels with
    | zero => exact (hsucc 0).tooDeep_right
    | succ levels => exact hsucc levels

end DocSelect
