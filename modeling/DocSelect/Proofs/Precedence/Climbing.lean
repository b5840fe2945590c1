import DocSelect.Proofs.Precedence.Parsing
import DocSelect.Proofs.Precedence.Reading

/-!
# The parser reads operators by their powers

The loop over infix tokens keeps one thing: the tree so far is the reading of what has been taken,
and no infix token in it binds less strongly than the one that comes next. A right side takes the
tokens that bind more strongly than its own, so the next one is again no stronger than what was
taken.
-/
namespace DocSelect

def TokenKind.Follows (k : TokenKind) : Prop := k = .eof ∨ (BindingPower.ofToken? k).isSome = true

theorem BindingPower.not_unary_lt (p : BindingPower) : ¬ unary < p := by
  cases p <;> decide

theorem BindingPower.lt_trans {p q r : BindingPower} (h : p < q) (k : q < r) : p < r :=
  Nat.lt_trans h k

theorem BindingPower.lt_of_not_lt {p q r : BindingPower} (h : ¬ q < p) (k : q < r) : p < r :=
  Nat.lt_of_le_of_lt (Nat.le_of_not_lt h) k

theorem Infix.assigns?_cases (o : Infix) :
    (∃ op, o.assigns? = some op ∧ o.power = .assignment) ∨
      (o.assigns? = none ∧ .assignment < o.power ∧
        ∃ op, BinaryOp.ofToken? o.token.kind = some op) := by
  obtain ⟨t, power, binds⟩ := o
  cases hk : t.kind <;>
    simp only [hk, BindingPower.ofToken?, reduceCtorEq, Option.some.injEq] at binds <;>
    subst binds <;> simp [assigns?, hk, BinaryOp.ofToken?] <;> decide

theorem Infix.kind_of_assigns? {o : Infix} {op : Option BinaryOp} (ho : o.assigns? = some op) :
    (o.token.kind = .assign ∧ op = none) ∨ (o.token.kind = .incrementBy ∧ op = some .add) ∨
      (o.token.kind = .decrementBy ∧ op = some .subtract) := by
  unfold assigns? at ho
  split at ho <;> cases ho <;> simp_all

theorem Infix.kind_ne_of_assigns? {o : Infix} (ho : o.assigns? = none) :
    o.token.kind ≠ .assign ∧ o.token.kind ≠ .incrementBy ∧
    o.token.kind ≠ .decrementBy := by
  refine ⟨?_, ?_, ?_⟩ <;> intro hk <;> simp [assigns?, hk] at ho

theorem Infix.default_lt (o : Infix) : .default < o.power := by
  rcases o.assigns?_cases with ⟨_, _, h⟩ | ⟨_, h, _⟩
  · rw [h]
    decide
  · exact BindingPower.lt_trans (by decide) h

theorem Infix.assigns?_eq_none {o x : Infix} (ho : o.assigns? = none) (h : o.power < x.power) :
    x.assigns? = none := by
  rcases o.assigns?_cases with ⟨_, hop, _⟩ | ⟨_, hlt, _⟩
  · rw [ho] at hop
    cases hop
  · rcases x.assigns?_cases with ⟨_, _, hx⟩ | ⟨hx, _⟩
    · rw [hx] at h
      exact absurd (BindingPower.lt_trans hlt h) (by decide)
    · exact hx

theorem Expr.chained_single {e : Expr} (h : e.steps = [e]) : chained [e] = e := by
  simp [chained, h]

theorem Operand.tokens_eq_cons (a : Operand) : ∃ t ts, a.tokens = t :: ts := by
  cases a <;> exact ⟨_, _, rfl⟩

theorem Operand.kind_of_mem {a : Operand} {t : Token} (h : t ∈ a.tokens) :
    t.kind ≠ .eof ∧ t.kind ≠ .semicolon := by
  have hleaf (a : Leaf) : a.token.kind ≠ .eof ∧ a.token.kind ≠ .semicolon := by
    constructor <;> intro hk <;> exact absurd a.isLeaf (by rw [hk]; decide)
  cases a with
  | plain leaf =>
    obtain rfl := List.mem_singleton.1 h
    exact hleaf leaf
  | not sign hs leaf | minus sign hs leaf =>
    rcases List.mem_cons.1 h with rfl | h
    · simp [hs]
    · obtain rfl := List.mem_singleton.1 h
      exact hleaf leaf

theorem Further.kind_ne_eof {rest : Further} {t : Token} (h : t ∈ rest.tokens) :
    t.kind ≠ .eof := by
  induction rest with
  | nil => simp [tokens] at h
  | cons x rest ih =>
    rcases List.mem_cons.1 h with rfl | h
    · intro hk
      have hbinds := x.1.binds
      rw [hk] at hbinds
      cases hbinds
    · rcases List.mem_append.1 h with h | h
      · exact (Operand.kind_of_mem h).1
      · exact ih h

namespace Parser

def Ahead (c : Cursor) (tokens : List Token) : Prop :=
  ∃ stop : Token, stop.kind = .eof ∧ c.toList = tokens ++ [stop]

namespace Ahead

variable {c : Cursor} {t : Token} {ts : List Token}

theorem current (h : Ahead c (t :: ts)) : c.current = t :=
  let ⟨_, _, h⟩ := h
  (List.cons.inj h).1

theorem rest_eq (h : Ahead c (t :: ts)) : ∃ u us, c.rest = u :: us := by
  obtain ⟨stop, -, h⟩ := h
  rw [(List.cons.inj h).2]
  exact List.exists_cons_of_ne_nil (by simp)

theorem advance (h : Ahead c (t :: ts)) : Ahead c.advance ts := by
  obtain ⟨u, us, hrest⟩ := h.rest_eq
  obtain ⟨stop, hstop, h⟩ := h
  refine ⟨stop, hstop, ?_⟩
  rw [Cursor.advance, hrest, Cursor.toList, ← hrest]
  exact (List.cons.inj h).2

theorem nextKind (h : Ahead c (t :: ts)) : c.nextKind = c.advance.kind := by
  obtain ⟨u, us, hrest⟩ := h.rest_eq
  simp [Cursor.nextKind, Cursor.advance, Cursor.kind, hrest]

theorem follows {rest : Further} (h : Ahead c rest.tokens) : c.kind.Follows := by
  cases rest with
  | nil =>
    obtain ⟨stop, hstop, h⟩ := h
    exact .inl ((congrArg Token.kind (List.cons.inj h).1).trans hstop)
  | cons x rest => exact .inr (by rw [Cursor.kind, h.current, x.1.binds]; rfl)

end Ahead

-- ---------------------------------------------------------------------------
-- Operands
-- ---------------------------------------------------------------------------

section
variable {c : Cursor} {nested : Nested} {rest : Further} {a : Leaf}

theorem exec_primary_leaf (h : Ahead c (a.token :: rest.tokens)) :
    (primary nested).exec c = (.ok a.expr, c.advance) := by
  have hparen : c.advance.kind ≠ .openParen := by
    intro hk
    have hfollows := h.advance.follows
    rw [hk] at hfollows
    exact absurd hfollows (by simp [TokenKind.Follows, BindingPower.ofToken?])
  have hleaf := a.leaf?_eq
  unfold primary
  simp only [exec_bind, exec_current, exec_nextKind, h.current, h.nextKind]
  unfold Token.leaf? at hleaf
  split at hleaf
  · rename_i hk
    rcases hn : numberLiteral a.token with e | e <;> rw [hn] at hleaf
    · cases hleaf
    · obtain rfl := Option.some.inj hleaf
      simp only [hk, isPropertyWord, Bool.false_eq_true, false_and, if_false,
        exec_bind, exec_advance, exec_pure]
  case h_7 hk =>
    simp only [hk, isPropertyWord, Bool.false_eq_true, false_and, if_false, exec_bind, exec_advance,
      exec_kind, hparen, exec_pure, ← Option.some.inj hleaf]
  case h_8 =>
    split at hleaf
    · rename_i hword
      simp only [hword, ne_eq, hparen, not_false_eq_true, and_self, if_true,
        exec_bind, exec_advance, exec_pure, ← Option.some.inj hleaf]
    · cases hleaf
  all_goals
    rename_i hk
    simp only [hk, isPropertyWord, Bool.false_eq_true, false_and, if_false, exec_bind, exec_advance,
      exec_pure, ← Option.some.inj hleaf]

theorem exec_furtherSteps {fuel : Nat} (hk : c.kind.Follows) :
    (furtherSteps nested fuel).exec c = (.ok [], c) := by
  cases fuel with
  | zero => rfl
  | succ fuel =>
    unfold furtherSteps
    simp only [exec_bind, exec_kind]
    split
    case h_5 => rfl
    all_goals
      rename_i hkind
      rw [hkind] at hk
      exact absurd hk (by simp [TokenKind.Follows, BindingPower.ofToken?])

theorem exec_chain_leaf (h : Ahead c (a.token :: rest.tokens)) :
    (chain nested).exec c = (.ok a.expr, c.advance) := by
  unfold chain
  simp only [exec_bind, exec_primary_leaf h, exec_rounds, exec_furtherSteps h.advance.follows,
    exec_pure, Expr.chained_single a.steps_expr]

theorem exec_operand_leaf (h : Ahead c (a.token :: rest.tokens)) (scope : Scope) :
    (operand nested scope).exec c = (.ok a.expr, c.advance) := by
  unfold operand
  simp only [exec_bind, exec_kind, Cursor.kind, h.current]
  split
  case h_3 => exact exec_chain_leaf h
  all_goals
    rename_i hk
    exact absurd a.isLeaf (by rw [hk]; decide)

theorem exec_expectEnd (hk : c.kind.Follows) : (expectEnd .root).exec c = (.ok (), c) := by
  unfold expectEnd
  simp only [exec_bind, exec_kind]
  rw [if_pos]
  · rfl
  · exact hk.imp (fun heof => by simp [heof, Scope.terminators]) id

theorem exec_folds_stop {scope : Scope} {p : BindingPower} {budget : Nat} {left : Expr}
    (h : Ahead c rest.tokens) (hstop : ∀ x ∈ rest.head?, ¬ p < x.1.power) :
    (folds nested scope p budget left).exec c = (.ok left, c) := by
  unfold folds
  simp only [exec_bind, exec_kind]
  cases rest with
  | nil =>
    obtain ⟨stop, hs, h⟩ := h
    rw [Cursor.kind, Cursor.current_of_toList h, hs]
    rfl
  | cons x rest =>
    rw [Cursor.kind, h.current, x.1.binds]
    simp only [if_neg (hstop x rfl), exec_pure]

theorem expression_unary (levels : Nat) (h : Ahead c (a.token :: rest.tokens)) :
    Yields (levels = 0) (expression levels .root .unary) c fun e c' => e = a.expr ∧
    c' = c.advance := by
  cases levels with
  | zero => exact .tooDeep rfl
  | succ levels =>
    have hstop : (folds (expression levels) .root .unary levels a.expr).exec c.advance =
        (.ok a.expr, c.advance) := exec_folds_stop h.advance fun x _ => x.1.power.not_unary_lt
    exact .bind_exec (exec_operand_leaf h .root) (.bind_exec hstop
      (.bind_exec (exec_expectEnd h.advance.follows) (.pure ⟨rfl, rfl⟩)))

theorem operand_yields (levels : Nat) {a : Operand} (h : Ahead c (a.tokens ++ rest.tokens)) :
    Yields (levels = 0) (operand (expression levels) .root) c fun e c' =>
      e = a.expr ∧ Ahead c' rest.tokens := by
  cases a with
  | plain leaf => exact .of_exec (exec_operand_leaf h .root) ⟨rfl, h.advance⟩
  | not sign hs leaf =>
    have hkind : c.kind = .not := by rw [Cursor.kind, h.current, hs]
    unfold operand
    refine .bind_exec (exec_kind c) ?_
    rw [hkind]
    refine .bind_exec (exec_advance c) (.bind (expression_unary levels h.advance) ?_)
    rintro e c' ⟨rfl, rfl⟩
    exact .pure ⟨rfl, h.advance.advance⟩
  | minus sign hs leaf =>
    have hkind : c.kind = .minus := by rw [Cursor.kind, h.current, hs]
    unfold operand
    refine .bind_exec (exec_kind c) ?_
    rw [hkind]
    exact .bind_exec (exec_advance c) (.bind_exec (exec_chain_leaf h.advance)
      (.pure ⟨rfl, h.advance.advance⟩))

end

-- ---------------------------------------------------------------------------
-- Infix tokens
-- ---------------------------------------------------------------------------

/-- What an expression begun at a power has read: the infix tokens up to the first that does not
bind more strongly. -/
def Reads (p : BindingPower) (a : Operand) (rest : Further) (e : Expr) (c : Cursor) : Prop :=
  ∃ taken left : Further, rest = taken ++ left ∧ Ahead c left.tokens ∧ Reading a taken e ∧
    (∀ x ∈ taken, p < x.1.power) ∧ ∀ x ∈ left.head?, ¬ p < x.1.power

def Climbs (levels : Nat) : Prop :=
  ∀ (p : BindingPower) (a : Operand) (rest : Further) (c : Cursor),
    Ahead c (a.tokens ++ rest.tokens) →
    Yields (levels < rest.length + 2) (expression levels .root p) c (Reads p a rest)

variable {levels : Nat} {o : Infix} {b : Operand} {rest : Further} {c : Cursor}

theorem Reads.all {e : Expr} (h : Reads .default b rest e c) : Reading b rest e ∧ Ahead c [] := by
  obtain ⟨taken, left, rfl, hc, he, -, hleft⟩ := h
  cases left with
  | nil => exact ⟨by simpa using he, hc⟩
  | cons x left => exact absurd x.1.default_lt (hleft x rfl)

theorem fold_assign (ih : Climbs levels) (h : Ahead c (o.token :: (b.tokens ++ rest.tokens)))
    {op : Option BinaryOp} (ho : o.assigns? = some op) (left : Expr) :
    Yields (levels < rest.length + 2) (fold (expression levels) .root left o.power) c fun e c' =>
      ∃ value, e = .assign left op value ∧ Reading b rest value ∧ Ahead c' [] := by
  have hvalue {op : Option BinaryOp} : Yields (levels < rest.length + 2)
      (do return Expr.assign left op (← expression levels .root .default)) c.advance fun e c' =>
        ∃ value, e = .assign left op value ∧ Reading b rest value ∧ Ahead c' [] :=
    .bind (ih .default b rest _ h.advance) fun value c' hr => .pure ⟨value, rfl, hr.all⟩
  unfold fold
  refine .bind_exec (exec_current c) (.bind_exec (exec_advance c) ?_)
  rw [h.current]
  rcases Infix.kind_of_assigns? ho with ⟨hk, rfl⟩ | ⟨hk, rfl⟩ | ⟨hk, rfl⟩ <;>
    rw [hk] <;> exact hvalue

theorem fold_binary (ih : Climbs levels) (h : Ahead c (o.token :: (b.tokens ++ rest.tokens)))
    (ho : o.assigns? = none) {op : BinaryOp} (hop : BinaryOp.ofToken? o.token.kind = some op)
    (left : Expr) :
    Yields (levels < rest.length + 2) (fold (expression levels) .root left o.power) c fun e c' =>
      ∃ right, e = .binary op left right ∧ Reads o.power b rest right c' := by
  unfold fold
  refine .bind_exec (exec_current c) (.bind_exec (exec_advance c) ?_)
  rw [h.current]
  obtain ⟨hassign, hincrement, hdecrement⟩ := Infix.kind_ne_of_assigns? ho
  split <;> rename_i hk
  · exact absurd hk hassign
  · exact absurd hk hincrement
  · exact absurd hk hdecrement
  · rw [hop]
    exact .bind (ih o.power b rest _ h.advance) fun right c' hr => .pure ⟨right, rfl, hr⟩

/-- Between two rounds of the loop over infix tokens: `done` has been taken, and `left` is its
tree. -/
structure Loop (p : BindingPower) (a : Operand) (done rest : Further) (left : Expr) (c : Cursor) :
    Prop where
  ahead : Ahead c rest.tokens
  reading : Reading a done left
  free : done.AssignFree ∨ rest = []
  stronger : ∀ x ∈ done, p < x.1.power
  next : ∀ x ∈ done, ∀ y ∈ rest.head?, ¬ x.1.power < y.1.power

namespace Loop

variable {p : BindingPower} {a : Operand} {done : Further} {left : Expr}

theorem assign {op : Option BinaryOp} {value : Expr} {c' : Cursor}
    (h : Loop p a done ((o, b) :: rest) left c) (hp : p < o.power) (ho : o.assigns? = some op)
    (hvalue : Reading b rest value) (hc : Ahead c' []) :
    Loop p a (done ++ (o, b) :: rest) [] (.assign left op value) c' where
  ahead := hc
  reading := .assign (h.free.resolve_right (by simp)) ho h.reading hvalue
  free := .inr rfl
  stronger x hx := by
    rcases List.mem_append.1 hx with hx | hx
    · exact h.stronger x hx
    · -- only the weakest power is weaker than an assignment
      have hpow : p = .default := by
        rcases o.assigns?_cases with ⟨_, _, hpow⟩ | ⟨hnone, _⟩
        · rw [hpow] at hp
          revert hp
          cases p <;> decide
        · rw [hnone] at ho
          cases ho
      rw [hpow]
      exact x.1.default_lt
  next := by simp

theorem binary {op : BinaryOp} {right : Expr} {taken more : Further} {c' : Cursor}
    (h : Loop p a done ((o, b) :: (taken ++ more)) left c) (hp : p < o.power)
    (ho : o.assigns? = none) (hop : BinaryOp.ofToken? o.token.kind = some op)
    (hright : Reading b taken right) (hc : Ahead c' more.tokens)
    (htaken : ∀ x ∈ taken, o.power < x.1.power)
    (hmore : ∀ y ∈ more.head?, ¬ o.power < y.1.power) :
    Loop p a (done ++ (o, b) :: taken) more (.binary op left right) c' := by
  have hfree : Further.AssignFree (done ++ (o, b) :: taken) := by
    intro x hx
    rcases List.mem_append.1 hx with hx | hx
    · exact h.free.resolve_right (by simp) x hx
    · rcases List.mem_cons.1 hx with rfl | hx
      · exact ho
      · exact Infix.assigns?_eq_none ho (htaken x hx)
  have hbefore : ∀ x ∈ done, ¬ x.1.power < o.power := fun x hx => h.next x hx _ rfl
  refine ⟨hc, .binary hfree hbefore htaken hop h.reading hright, .inl hfree, ?_, ?_⟩
  · intro x hx
    rcases List.mem_append.1 hx with hx | hx
    · exact h.stronger x hx
    · rcases List.mem_cons.1 hx with rfl | hx
      · exact hp
      · exact BindingPower.lt_trans hp (htaken x hx)
  · intro x hx y hy hlt
    rcases List.mem_append.1 hx with hx | hx
    · exact hmore y hy (BindingPower.lt_of_not_lt (h.next x hx _ rfl) hlt)
    · rcases List.mem_cons.1 hx with rfl | hx
      · exact hmore y hy hlt
      · exact hmore y hy (BindingPower.lt_trans (htaken x hx) hlt)

theorem fold_yields (ih : Climbs levels) (h : Loop p a done ((o, b) :: rest) left c)
    (hp : p < o.power) :
    Yields (levels < rest.length + 2) (fold (expression levels) .root left o.power) c fun e c' =>
      ∃ taken more, rest = taken ++ more ∧ Loop p a (done ++ (o, b) :: taken) more e c' := by
  rcases o.assigns?_cases with ⟨op, ho, -⟩ | ⟨ho, -, op, hop⟩
  · refine (fold_assign ih h.ahead ho left).mono id ?_
    rintro _ c' ⟨value, rfl, hvalue, hc⟩
    exact ⟨rest, [], by simp, h.assign hp ho hvalue hc⟩
  · refine (fold_binary ih h.ahead ho hop left).mono id ?_
    rintro _ c' ⟨right, rfl, taken, more, rfl, hc, hright, htaken, hmore⟩
    exact ⟨taken, more, rfl, h.binary hp ho hop hright hc htaken hmore⟩

theorem folds_yields (ih : Climbs levels) {budget : Nat} (h : Loop p a done rest left c) :
    Yields (budget < rest.length ∨ levels < rest.length + 1)
      (folds (expression levels) .root p budget left) c fun e c' =>
        ∃ taken more, rest = taken ++ more ∧ Loop p a (done ++ taken) more e c' ∧
          ∀ x ∈ more.head?, ¬ p < x.1.power := by
  have hstop {done rest : Further} {left : Expr} {c : Cursor} {budget : Nat}
      (h : Loop p a done rest left c) (hno : ∀ x ∈ rest.head?, ¬ p < x.1.power) :
      Yields (budget < rest.length ∨ levels < rest.length + 1)
        (folds (expression levels) .root p budget left) c fun e c' =>
          ∃ taken more, rest = taken ++ more ∧ Loop p a (done ++ taken) more e c' ∧
            ∀ x ∈ more.head?, ¬ p < x.1.power :=
    .of_exec (exec_folds_stop h.ahead hno) ⟨[], rest, rfl, by rwa [List.append_nil], hno⟩
  induction budget generalizing done rest left c with
  | zero =>
    rcases rest with _ | ⟨⟨o, b⟩, rest⟩
    · exact hstop h (by simp)
    · by_cases hp : p < o.power
      · unfold folds
        refine .bind_exec (exec_kind c) ?_
        rw [Cursor.kind, h.ahead.current, o.binds]
        simp only [if_pos hp]
        exact .tooDeep (.inl (by simp))
      · exact hstop h (by simpa using hp)
  | succ budget ihb =>
    rcases rest with _ | ⟨⟨o, b⟩, rest⟩
    · exact hstop h (by simp)
    · by_cases hp : p < o.power
      · unfold folds
        refine .bind_exec (exec_kind c) ?_
        rw [Cursor.kind, h.ahead.current, o.binds]
        simp only [if_pos hp]
        refine .bind ((h.fold_yields ih hp).mono .inr fun _ _ => id) ?_
        rintro e c' ⟨taken, more, rfl, h'⟩
        refine (ihb h').mono ?_ ?_
        · simp only [List.length_cons, List.length_append]
          omega
        · rintro e c' ⟨taken', more, rfl, h'', hmore⟩
          exact ⟨(o, b) :: (taken ++ taken'), more, by simp, by simpa using h'', hmore⟩
      · exact hstop h (by simpa using hp)

end Loop

theorem climbs (levels : Nat) : Climbs levels := by
  induction levels with
  | zero => exact fun p a rest c _ => .tooDeep (Nat.succ_pos _)
  | succ levels ih =>
    intro p a rest c h
    refine .bind ((operand_yields levels h).mono (by omega) fun _ _ => id) ?_
    rintro _ c' ⟨rfl, hc⟩
    have hstart : Loop p a [] rest a.expr c' :=
      ⟨hc, .operand a, .inl (by simp [Further.AssignFree]),
      by simp, by simp⟩
    refine .bind ((hstart.folds_yields ih).mono (by omega) fun _ _ => id) ?_
    rintro e c' ⟨taken, more, rfl, hend, hmore⟩
    exact .bind_exec (exec_expectEnd hend.ahead.follows)
      (.pure ⟨taken, more, rfl, hend.ahead, hend.reading, hend.stronger, hmore⟩)

-- ---------------------------------------------------------------------------
-- Selectors
-- ---------------------------------------------------------------------------

theorem selector_yields {a : Operand} (h : Ahead c (a.tokens ++ rest.tokens)) :
    Yields (maxDepth < rest.length + 2) selector c fun e _ => Reading a rest e := by
  obtain ⟨t, ts, htokens⟩ := a.tokens_eq_cons
  obtain ⟨heof, hsemicolon⟩ := Operand.kind_of_mem (a := a) (htokens ▸ List.mem_cons_self)
  have hfirst : Ahead c (t :: (ts ++ rest.tokens)) := by rwa [htokens] at h
  have hkind : c.kind = t.kind := by rw [Cursor.kind, hfirst.current]
  obtain ⟨u, us, hrest⟩ := hfirst.rest_eq
  -- one round for the expression, and one for the end of the input
  have hloop : Yields (maxDepth < rest.length + 2)
      (sequenceLoop (expression maxDepth) .root .eof .semicolon (us.length + 1 + 1) false) c
      fun es _ => ∃ e, es = [e] ∧ Reading a rest e := by
    unfold sequenceLoop
    refine .bind_exec (exec_kind c) ?_
    rw [hkind, if_neg heof, if_neg hsemicolon, if_neg heof]
    refine .bind (climbs maxDepth .default a rest c h) fun e c' hr => ?_
    obtain ⟨stop, hstop, hend⟩ := hr.all.2
    have hclose : (sequenceLoop (expression maxDepth) .root .eof .semicolon
        (us.length + 1) true).exec c' = (.ok [], c'.advance) := by
      unfold sequenceLoop
      simp only [exec_bind, exec_kind, Cursor.kind, Cursor.current_of_toList hend, hstop, if_true,
        exec_advance, exec_pure]
    exact .bind_exec hclose (.pure ⟨e, rfl, hr.all.1⟩)
  unfold selector sequence
  refine .bind (.bind_exec (exec_rounds c) ?_)
    (Q := fun es _ => ∃ e, es = [e] ∧ Reading a rest e) ?_
  · rw [hrest]
    exact hloop
  · rintro es c' ⟨e, rfl, he⟩
    refine .pure ?_
    rwa [Expr.chained_single he.steps_eq]

end Parser

theorem Cursor.ahead_ofTokens {tokens : List Token} (h : ∀ t ∈ tokens, t.kind ≠ .eof) :
    Parser.Ahead (ofTokens tokens) tokens := by
  unfold ofTokens ended
  rcases hlast : tokens.getLast? with _ | last
  · obtain rfl := List.getLast?_eq_none_iff.1 hlast
    exact ⟨_, rfl, rfl⟩
  · have hne : last.kind ≠ .eof := h last (List.mem_of_getLast? hlast)
    simp only [if_neg hne]
    refine ⟨Token.atEnd last.stop, rfl, ?_⟩
    split
    · rename_i hnil
      simp at hnil
    · rename_i hcons
      rw [hcons, toList]

/-- Operands with infix tokens between them have the tree that the binding powers say, or
expressions nest too deep, which takes more than 126 infix tokens. -/
theorem parseTokens_reading (a : Operand) (rest : Further) :
    (∃ e, parseTokens (a.tokens ++ rest.tokens) = .ok e ∧ Reading a rest e ∧
      ∀ e', Reading a rest e' → e' = e) ∨
    (Parser.maxDepth < rest.length + 2 ∧ ∃ position,
      parseTokens (a.tokens ++ rest.tokens) = .error (.tooDeep Parser.maxDepth position)) := by
  have hne : ∀ t ∈ a.tokens ++ rest.tokens, t.kind ≠ .eof := fun t ht =>
    (List.mem_append.1 ht).elim (fun ht => (Operand.kind_of_mem ht).1) Further.kind_ne_eof
  have h := Parser.selector_yields (Cursor.ahead_ofTokens hne)
  unfold Parser.Yields at h
  unfold parseTokens
  rw [← Parser.exec]
  rcases hx : Parser.selector.exec (Cursor.ofTokens
    (a.tokens ++ rest.tokens)) with ⟨e | e, c⟩ <;>
    rw [hx] at h
  · obtain ⟨hdeep, position, rfl⟩ := h
    exact .inr ⟨hdeep, position, rfl⟩
  · exact .inl ⟨e, rfl, h, fun e' he => he.unique h⟩

end DocSelect
