import DocSelect.Proofs.NormalForm.Operand

/-!
# The trees of the productions are in normal form

The parser of the next level is given, and takes expressions in normal form. An assignment is among
them only where it was asked for at the weakest power, and then no infix token comes after it: this
keeps assignments from being operands in the loop over infix tokens.
-/
namespace DocSelect

open DocSelect.Parser DocSelect.Expr

-- ---------------------------------------------------------------------------
-- Parsers on tokens of the lexer
-- ---------------------------------------------------------------------------

def Cursor.Taken (c : Cursor) : Prop := ∀ t ∈ c.toList, ∃ l : Lexer, l.next.1 = .ok t

theorem Cursor.Taken.advance {c : Cursor} (h : c.Taken) : c.advance.Taken := by
  unfold Cursor.advance
  split
  · exact h
  · rename_i next rest hrest
    exact fun t ht => h t (List.mem_cons_of_mem _ (hrest ▸ ht))

theorem Cursor.Taken.single {c : Cursor} {e : Expr} (h : c.Taken)
    (he : numberLiteral c.current = .ok e) : e.Single := by
  obtain ⟨l, hl⟩ := h c.current List.mem_cons_self
  have hkind : c.current.kind = .number := by
    by_contra hkind
    rw [numberLiteral, if_pos hkind] at he
    cases he
  exact .numberLiteral (l.numberText_of_next hl hkind) he

namespace Parser

variable {α β : Type}

/-- Where a parser succeeds on tokens of the lexer, it leaves such tokens, and its result and the
place reached are as `Q` says. -/
def Ensures (x : Parser α) (c : Cursor) (Q : α → Cursor → Prop) : Prop :=
  c.Taken → ∀ r c', x.exec c = (.ok r, c') → c'.Taken ∧ Q r c'

namespace Ensures

variable {x : Parser α} {c : Cursor} {Q Q' : α → Cursor → Prop}

theorem of_exec {r : α} (h : x.exec c = (.ok r, c)) (hQ : Q r c) : Ensures x c Q := by
  intro hc r' c' h'
  rw [h] at h'
  cases h'
  exact ⟨hc, hQ⟩

theorem pure {r : α} (hQ : Q r c) : Ensures (pure r) c Q := of_exec rfl hQ

theorem throw (e : ParseError) : Ensures (throw e : Parser α) c Q := fun _ _ _ h => by cases h

theorem unexpected : Ensures (unexpected : Parser α) c Q := fun _ _ _ h => by cases h

theorem tooDeep : Ensures (tooDeep : Parser α) c Q := fun _ _ _ h => by cases h

theorem of_taken (h : c.Taken → Ensures x c Q) : Ensures x c Q := fun hc => h hc hc

theorem mono (h : Ensures x c Q) (hQ : ∀ r c', Q r c' → Q' r c') : Ensures x c Q' :=
  fun hc r c' hx =>
  let ⟨hc', hr⟩ := h hc r c' hx
  ⟨hc', hQ r c' hr⟩

theorem bind {f : α → Parser β} {S : β → Cursor → Prop} (h : Ensures x c Q)
    (hf : ∀ r c', Q r c' → Ensures (f r) c' S) : Ensures (x >>= f) c S := by
  intro hc r c' hx
  obtain ⟨a, c₁, hfirst, hx⟩ := exec_bind_eq_ok_iff.1 hx
  obtain ⟨hc₁, ha⟩ := h hc a c₁ hfirst
  exact hf a c₁ ha hc₁ r c' hx

theorem look {f : α → Parser β} {S : β → Cursor → Prop} {r : α}
    (h : x.exec c = (.ok r, c)) (hf : Ensures (f r) c S) : Ensures (x >>= f) c S :=
  bind (Q := fun r' c' => r' = r ∧ c' = c) (of_exec h ⟨rfl, rfl⟩)
    (by rintro _ _ ⟨rfl, rfl⟩; exact hf)

theorem after {f : α → Parser β} {S : β → Cursor → Prop} (h : Ensures x c fun _ _ => True)
    (hf : ∀ r c', Ensures (f r) c' S) : Ensures (x >>= f) c S := bind h fun r c' _ => hf r c'

theorem advance : Ensures advance c fun _ _ => True := fun hc _ _ h => by
  cases h
  exact ⟨hc.advance, trivial⟩

theorem expect (k : TokenKind) : Ensures (expect k) c fun _ _ => True := by
  unfold Parser.expect
  refine look (exec_kind c) ?_
  split
  · exact advance
  · exact unexpected

theorem expectEnd (scope : Scope) : Ensures (expectEnd scope) c fun _ c' => c' = c := by
  unfold Parser.expectEnd
  refine look (exec_kind c) ?_
  split
  · exact pure rfl
  · exact unexpected

end Ensures

end Parser

/-- An expression begun at a power, and the place after it: only at the weakest power it is an
assignment, and no infix token comes next that binds more strongly. -/
structure Whole (power : BindingPower) (e : Expr) (c : Cursor) : Prop where
  tidy : e.Tidy
  assigns : e.isAssign = true → power < .assignment
  stops : ∀ p ∈ BindingPower.ofToken? c.kind, ¬ power < p

theorem BindingPower.not_lt_assignment {k : TokenKind} {p : BindingPower}
    (h : ofToken? k = some p) : ¬ p < .assignment := by
  unfold ofToken? at h
  split at h <;> cases h <;> decide

theorem Whole.ofToken?_eq_none {e : Expr} {c : Cursor} (h : Whole .default e c) :
    BindingPower.ofToken? c.kind = none :=
  Option.eq_none_iff_forall_not_mem.2 fun p hp =>
    h.stops p hp (Infix.default_lt ⟨c.current, p, hp⟩)

/-- Between two rounds of the loop over infix tokens the tree is no assignment, or none of them
comes next. -/
structure Between (power : BindingPower) (e : Expr) (c : Cursor) : Prop where
  tidy : e.Tidy
  assigns : e.isAssign = true → power < .assignment ∧ BindingPower.ofToken? c.kind = none

theorem Between.plain {power p : BindingPower} {e : Expr} {c : Cursor} (h : Between power e c)
    (hp : BindingPower.ofToken? c.kind = some p) : e.Plain := by
  refine ⟨h.tidy, Bool.eq_false_iff.2 fun hassign => ?_⟩
  cases hp.symm.trans (h.assigns hassign).2

theorem Between.whole {power : BindingPower} {e : Expr} {c : Cursor} (h : Between power e c)
    (hstop : ∀ p ∈ BindingPower.ofToken? c.kind, ¬ power < p) : Whole power e c :=
  ⟨h.tidy, fun hassign => (h.assigns hassign).1, hstop⟩

def Forms (nested : Nested) : Prop :=
  ∀ scope power c, (nested scope power).Ensures c (Whole power)

namespace Forms

variable {nested : Nested} {c : Cursor} (hn : Forms nested)
include hn

-- ---------------------------------------------------------------------------
-- Lists of expressions
-- ---------------------------------------------------------------------------

theorem sequenceLoop (scope : Scope) (close separator : TokenKind) (fuel : Nat) (filled : Bool) :
    (sequenceLoop nested scope close separator fuel filled).Ensures c fun es _ =>
      (∀ e ∈ es, e.Tidy) ∧ (es = [] → filled = true ∨ c.kind = close) := by
  induction fuel generalizing filled c with
  | zero => exact .unexpected
  | succ fuel ih =>
    unfold Parser.sequenceLoop
    refine .look (exec_kind c) ?_
    split
    · rename_i hclose
      exact .after .advance fun _ _ =>
        .pure ⟨fun e he => absurd he List.not_mem_nil, fun _ => .inr hclose⟩
    split
    · split
      · rename_i hfilled
        exact .after .advance fun _ _ => (ih false).mono fun es _ h =>
          ⟨h.1, fun _ => .inl hfilled⟩
      · exact .unexpected
    split
    · exact .unexpected
    · refine .bind (hn scope .default c) fun e c₁ he => .bind (ih true) fun es _ hes => .pure ?_
      exact ⟨List.forall_mem_cons.2 ⟨he.tidy, hes.1⟩,
        fun h => absurd h (List.cons_ne_nil _ _)⟩

theorem sequence (scope : Scope) (close separator : TokenKind) :
    (sequence nested scope close separator).Ensures c fun es _ =>
      (∀ e ∈ es, e.Tidy) ∧ (es = [] → c.kind = close) := by
  unfold Parser.sequence
  refine .look (exec_rounds c) ((hn.sequenceLoop _ _ _ _ _).mono fun es _ h =>
    ⟨h.1, fun hes => ?_⟩)
  exact (h.2 hes).resolve_left Bool.false_ne_true

theorem arguments : (arguments nested).Ensures c fun es _ => ∀ e ∈ es, e.Tidy := by
  unfold Parser.arguments
  exact .after (.expect _) fun _ _ => (hn.sequence _ _ _).mono fun _ _ h => h.1

theorem statements (scope : Scope) (close : TokenKind) :
    (statements nested scope close).Ensures c fun e _ => e.Tidy := by
  unfold Parser.statements
  refine .look (exec_kind c) ?_
  split
  · exact .unexpected
  · rename_i hclose
    exact .bind (hn.sequence _ _ _) fun es _ hes =>
      .pure (tidy_chained (fun h => hclose (hes.2 h)) hes.1)

theorem group : (group nested).Ensures c fun e _ => e.Single := by
  unfold Parser.group
  refine .after (.expect _) fun _ _ => .bind (hn.statements _ _) fun e _ he => .pure ?_
  exact .of_parts rfl trivial (List.forall_mem_singleton.2 he)

theorem array : (array nested).Ensures c fun e _ => e.Single := by
  unfold Parser.array
  exact .after (.expect _) fun _ _ => .bind (hn.sequence _ _ _) fun es _ hes =>
    .pure (.of_parts rfl trivial hes.1)

theorem body : (body nested).Ensures c fun e _ => e.Tidy := by
  unfold Parser.body
  exact .after (.expect _) fun _ _ => hn.statements _ _

-- ---------------------------------------------------------------------------
-- Objects
-- ---------------------------------------------------------------------------

theorem objectEntry :
    (objectEntry nested).Ensures c fun entry _ => ∀ e ∈ entryChildren entry, e.Tidy := by
  have hkey (s : String) : (Expr.string s).Tidy := tidy_leaf trivial rfl
  have hpair {key value : Expr} (hkey : key.Tidy) (hvalue : value.Tidy) :
      ∀ e ∈ entryChildren (.pair key value), e.Tidy :=
    List.forall_mem_cons.2 ⟨hkey, List.forall_mem_singleton.2 hvalue⟩
  have hnone : ∀ e ∈ entryChildren (.spread none), e.Tidy :=
    fun e he => absurd he List.not_mem_nil
  unfold Parser.objectEntry
  refine .look (exec_current c) (.look (exec_nextKind c) ?_)
  dsimp only
  split
  · exact .after .advance fun _ _ => .pure hnone
  split
  · exact .after .advance fun _ _ => .pure (hpair (hkey _) (tidy_leaf trivial rfl))
  split
  · exact .after .advance fun _ _ => .after .advance fun _ c₂ =>
      .bind (hn .object .default c₂) fun e _ he => .pure (hpair (hkey _) he.tidy)
  · refine .bind (hn .object .default c) fun key c₁ hkey => ?_
    split
    · exact .pure hnone
    split
    · refine .pure fun e he => ?_
      exact hkey.tidy.dropLast? (Option.mem_toList.1 he)
    · exact .after (.expect _) fun _ c₂ =>
        .bind (hn .object .default c₂) fun e _ he => .pure (hpair hkey.tidy he.tidy)

theorem objectLoop (fuel : Nat) :
    (objectLoop nested fuel).Ensures c fun entries _ => ∀ e ∈
      entries.flatMap entryChildren, e.Tidy := by
  induction fuel generalizing c with
  | zero => exact .unexpected
  | succ fuel ih =>
    unfold Parser.objectLoop
    refine .look (exec_kind c) ?_
    split
    · exact .after .advance fun _ _ => .pure fun e he => absurd he List.not_mem_nil
    · refine .bind hn.objectEntry fun entry c₁ hentry => .look (exec_kind c₁) ?_
      have hrest (c₂ : Cursor) :
          Ensures (do return entry :: (← Parser.objectLoop nested fuel)) c₂
          fun entries _ => ∀ e ∈ entries.flatMap entryChildren, e.Tidy :=
        .bind ih fun entries _ hentries => .pure fun e he =>
          (List.mem_append.1 (List.flatMap_cons ▸ he)).elim (hentry e) (hentries e)
      split
      · exact .after .advance fun _ c₂ => hrest c₂
      split
      · exact .after .unexpected fun _ c₂ => hrest c₂
      · exact hrest c₁

theorem object : (object nested).Ensures c fun e _ => e.Single := by
  unfold Parser.object
  exact .after (.expect _) fun _ c₁ => .look (exec_rounds c₁)
    (.bind (hn.objectLoop _) fun entries _ hentries => .pure (.of_parts rfl trivial hentries))

-- ---------------------------------------------------------------------------
-- Steps of a chain
-- ---------------------------------------------------------------------------

theorem rangeBound (absentBefore : TokenKind) :
    (bound nested absentBefore).Ensures c fun e _ => ∀ x ∈ e.toList, x.Tidy := by
  unfold Parser.bound
  refine .look (exec_kind c) ?_
  split
  · exact .pure fun e he => absurd he List.not_mem_nil
  · exact .bind (hn .brackets .default c) fun e _ he => .pure (List.forall_mem_singleton.2 he.tidy)

theorem brackets : (brackets nested).Ensures c fun e _ => e.Single := by
  unfold Parser.brackets
  refine .after (.expect _) fun _ c₁ => .look (exec_kind c₁) (.look (exec_nextKind c₁) ?_)
  split
  · exact .after .advance fun _ _ => .after .advance fun _ _ => .pure (.leaf rfl trivial rfl)
  · refine .bind (hn.rangeBound _) fun start c₂ hstart => .look (exec_kind c₂) ?_
    split
    · exact .after .advance fun _ _ => .pure (.of_parts rfl trivial hstart)
    · refine .after (.expect _) fun _ _ => .bind (hn.rangeBound _) fun stop _ hstop => ?_
      refine .after (.expect _) fun _ _ => .pure (.of_parts rfl trivial fun e he => ?_)
      exact (List.mem_append.1 he).elim (hstart e) (hstop e)

omit hn in
theorem descent : descent.Ensures c fun e _ => e.Single := by
  unfold Parser.descent
  refine .look (exec_current c) ?_
  have hleaf {target : DescentTarget} (h : (Expr.descend target).Normal) :
      Ensures (do Parser.advance; return Expr.descend target) c fun e _ => e.Single :=
    .after .advance fun _ _ => .pure (.leaf rfl h rfl)
  split
  · exact hleaf trivial
  · exact hleaf trivial
  · exact hleaf trivial
  · exact hleaf trivial
  · refine .after .advance fun _ c₁ => .look (exec_current c₁) (.of_taken fun htaken => ?_)
    split
    · rename_i i hnumber
      have hnormal : (Expr.descend (.index i)).Normal := (htaken.single hnumber).nonneg rfl
      exact .after .advance fun _ _ => .after (.expect _) fun _ _ => .pure (.leaf rfl hnormal rfl)
    · exact .throw _
    · exact .throw _
  · exact .unexpected

-- ---------------------------------------------------------------------------
-- Constructs
-- ---------------------------------------------------------------------------

theorem conditional (fuel : Nat) : (conditional nested fuel).Ensures c fun e _ => e.Single := by
  induction fuel generalizing c with
  | zero => exact .unexpected
  | succ fuel ih =>
    unfold Parser.conditional
    refine .after .advance fun _ _ => .after (.expect _) fun _ _ => ?_
    refine .bind (hn.statements _ _) fun condition _ hcondition => ?_
    refine .bind hn.body fun consequence c₄ hconsequence => .look (exec_kind c₄) ?_
    have hparts {alternative : Option Expr} (h : ∀ e ∈ alternative.toList, e.Tidy) :
        (Expr.conditional condition consequence alternative).Single :=
      .of_parts rfl trivial (List.forall_mem_cons.2
        ⟨hcondition, List.forall_mem_cons.2 ⟨hconsequence, h⟩⟩)
    split
    · exact .bind ih fun e _ he => .pure (hparts (List.forall_mem_singleton.2 he.tidy))
    · exact .after .advance fun _ _ =>
        .bind hn.body fun e _ he => .pure (hparts (List.forall_mem_singleton.2 he))
    · exact .pure (hparts fun e he => absurd he List.not_mem_nil)

theorem collection (word : Keyword) : (collection nested word).Ensures c fun e _ => e.Tidy := by
  unfold Parser.collection
  refine .look (exec_current c) (.after .advance fun _ _ => .bind hn.arguments fun es _ hes => ?_)
  split
  · exact .throw _
  · rename_i hne
    exact .pure (tidy_chained hne hes)

omit hn in
theorem direction : direction.Ensures c fun _ _ => True := by
  unfold Parser.direction
  refine .look (exec_kind c) ?_
  split
  · refine .after .advance fun _ c₁ => .look (exec_kind c₁) ?_
    split
    · exact .after .advance fun _ _ => .pure trivial
    · exact .after .advance fun _ _ => .pure trivial
    · exact .unexpected
  · exact .pure trivial

theorem sortBy : (sortBy nested).Ensures c fun e _ => e.Single := by
  unfold Parser.sortBy
  refine .after .advance fun _ _ => .after (.expect _) fun _ c₂ => ?_
  refine .bind (hn .arguments .default c₂) fun key _ hkey => .after direction fun _ _ => ?_
  exact .after (.expect _) fun _ _ =>
    .pure (.of_parts rfl trivial (List.forall_mem_singleton.2 hkey.tidy))

theorem construct (word : Keyword) : (construct nested word).Ensures c fun e _ => e.Single := by
  cases word with
  | ifThen => exact .look (exec_rounds c) (hn.conditional _)
  | branch =>
    exact .after .advance fun _ _ => .bind hn.arguments fun es _ hes =>
      .pure (.of_parts rfl trivial hes)
  | map | filter | each | search =>
    exact .bind (hn.collection _) fun e _ he =>
      .pure (.of_parts rfl trivial (List.forall_mem_singleton.2 he))
  | sortBy => exact hn.sortBy
  | elseIf | elseThen | asc | desc => exact .unexpected

theorem primary : (primary nested).Ensures c fun e _ => e.Single := by
  have hleaf {e : Expr} (h : e.Single) :
      Ensures (do Parser.advance; return e) c fun e _ => e.Single :=
    .after .advance fun _ _ => .pure h
  unfold Parser.primary
  refine .look (exec_current c) (.look (exec_nextKind c) ?_)
  split
  · exact hleaf (.leaf rfl trivial rfl)
  split
  case h_1 =>
    refine .of_taken fun htaken => .after .advance fun _ _ => ?_
    split
    · rename_i hnumber
      exact .pure (htaken.single hnumber)
    · exact .throw _
  case h_7 =>
    refine .after .advance fun _ c₁ => .look (exec_kind c₁) ?_
    split
    · exact .bind hn.arguments fun es _ hes => .pure (.of_parts rfl trivial hes)
    · exact .pure (.leaf rfl trivial rfl)
  case h_9 => exact .after .advance fun _ _ => descent
  case h_10 => exact hn.group
  case h_11 => exact hn.array
  case h_12 => exact hn.object
  case h_13 word _ => exact hn.construct word
  case h_14 => exact .unexpected
  all_goals exact hleaf (.leaf rfl trivial rfl)

theorem furtherSteps (fuel : Nat) :
    (furtherSteps nested fuel).Ensures c fun es _ => ∀ e ∈ es, e.Single := by
  induction fuel generalizing c with
  | zero => exact .pure fun e he => absurd he List.not_mem_nil
  | succ fuel ih =>
    have hmore {e : Expr} {c₁ : Cursor} (he : e.Single) :
        Ensures (do return e :: (← Parser.furtherSteps nested fuel)) c₁ fun es _ =>
          ∀ e ∈ es, e.Single :=
      .bind ih fun es _ hes => .pure (List.forall_mem_cons.2 ⟨he, hes⟩)
    unfold Parser.furtherSteps
    refine .look (exec_kind c) ?_
    split
    · exact .after .advance fun _ _ => .bind hn.primary fun e _ he => hmore he
    · exact .after .advance fun _ _ => .bind descent fun e _ he => hmore he
    · exact .bind hn.brackets fun e _ he => hmore he
    · exact .after .advance fun _ _ => hmore (.leaf rfl trivial rfl)
    · exact .pure fun e he => absurd he List.not_mem_nil

theorem chain : (chain nested).Ensures c fun e _ => e.Unsigned := by
  unfold Parser.chain
  refine .bind hn.primary fun first c₁ hfirst => .look (exec_rounds c₁) ?_
  exact .bind (hn.furtherSteps _) fun further _ hfurther => .pure (unsigned_chained hfirst hfurther)

-- ---------------------------------------------------------------------------
-- Operators
-- ---------------------------------------------------------------------------

theorem operand (scope : Scope) : (operand nested scope).Ensures c fun e _ => e.Plain := by
  unfold Parser.operand
  refine .look (exec_kind c) ?_
  split
  · refine .after .advance fun _ c₁ => .bind (hn scope .unary c₁) fun e _ he => .pure ?_
    have hnormal : (Expr.not e).Normal :=
      Bool.eq_false_iff.2 fun h => absurd (he.assigns h) (by decide)
    exact (Single.of_parts rfl hnormal (List.forall_mem_singleton.2 he.tidy)).toPlain
  · exact .after .advance fun _ _ => .bind hn.chain fun e _ he => .pure he.negated
  · exact hn.chain.mono fun e _ he => he.toPlain

theorem fold (scope : Scope) {left : Expr} {power p : BindingPower} (hleft : left.Plain)
    (hlt : power < p) (hp : BindingPower.ofToken? c.kind = some p) :
    (fold nested scope left p).Ensures c (Between power) := by
  unfold Parser.fold
  refine .look (exec_current c) (.after .advance fun _ c₁ => ?_)
  have hassign (op : Option BinaryOp) (hkind : BindingPower.ofToken? c.kind = some .assignment) :
      Ensures (do return Expr.assign left op (← nested scope .default)) c₁ (Between power) := by
    refine .bind (hn scope .default c₁) fun value _ hvalue =>
      .pure ⟨?_, fun _ => ⟨?_, hvalue.ofToken?_eq_none⟩⟩
    · exact tidy_iff.2 ⟨hleft.not_assign,
        List.forall_mem_cons.2 ⟨hleft.tidy, List.forall_mem_singleton.2 hvalue.tidy⟩⟩
    · exact Option.some.inj (hp.symm.trans hkind) ▸ hlt
  split
  · rename_i hk
    exact hassign none (congrArg BindingPower.ofToken? hk)
  · rename_i hk
    exact hassign (some .add) (congrArg BindingPower.ofToken? hk)
  · rename_i hk
    exact hassign (some .subtract) (congrArg BindingPower.ofToken? hk)
  · split
    · refine .bind (hn scope p c₁) fun right _ hright => .pure ⟨?_, nofun⟩
      have hplain : right.isAssign = false :=
        Bool.eq_false_iff.2 fun h => BindingPower.not_lt_assignment hp (hright.assigns h)
      exact tidy_iff.2 ⟨⟨hleft.not_assign, hplain⟩,
        List.forall_mem_cons.2 ⟨hleft.tidy, List.forall_mem_singleton.2 hright.tidy⟩⟩
    · exact .throw _

theorem folds (scope : Scope) (power : BindingPower) (levels : Nat) {left : Expr}
    (h : Between power left c) :
    (folds nested scope power levels left).Ensures c (Whole power) := by
  have hweaker {p : BindingPower} {left : Expr} {c : Cursor} (h : Between power left c)
      (hp : BindingPower.ofToken? c.kind = some p) (hlt : ¬ power < p) : Whole power left c :=
    h.whole fun q hq => Option.some.inj (hp.symm.trans hq) ▸ hlt
  have hnone {left : Expr} {c : Cursor} (h : Between power left c)
      (hnone : BindingPower.ofToken? c.kind = none) : Whole power left c :=
    h.whole fun q hq => nomatch hnone.symm.trans hq
  induction levels generalizing left c with
  | zero =>
    unfold Parser.folds
    refine .look (exec_kind c) ?_
    split
    · split
      · exact .tooDeep
      · exact .pure (hweaker h ‹_› ‹_›)
    · exact .pure (hnone h ‹_›)
  | succ levels ih =>
    unfold Parser.folds
    refine .look (exec_kind c) ?_
    split
    · rename_i p hp
      split
      · exact .bind (hn.fold scope (h.plain hp) ‹_› hp) fun e c₁ he => ih he
      · exact .pure (hweaker h hp ‹_›)
    · exact .pure (hnone h ‹_›)

end Forms

theorem forms_expression (levels : Nat) : Forms (expression levels) := by
  induction levels with
  | zero => exact fun _ _ _ => .tooDeep
  | succ levels ih =>
    intro scope power c
    unfold expression
    refine .bind (ih.operand scope) fun left c₁ hleft => ?_
    have hbetween : Between power left c₁ :=
      ⟨hleft.tidy, fun h => absurd (hleft.not_assign.symm.trans h) Bool.false_ne_true⟩
    refine .bind (ih.folds scope power levels hbetween) fun e c₂ he => ?_
    exact .bind (.expectEnd scope) fun _ _ hc => .pure (hc ▸ he)

end DocSelect
