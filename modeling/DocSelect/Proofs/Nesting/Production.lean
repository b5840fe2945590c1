import DocSelect.Proofs.Nesting.Tally
import Mathlib.Data.Nat.Choose.Basic

/-!
# How high the trees of the productions are

The parser of the next level is given, with a bound on its trees. Each production adds at most four
expressions to that: a prefix operator, a chain, a construct and the statements in it.
-/
namespace DocSelect

open DocSelect.Parser DocSelect.Expr

namespace Tally

def room (t : Tally) (levels : Nat) : Nat := 4 * levels + t.share * (levels * (levels - 1) / 2)

variable {t : Tally}

theorem room_succ (levels : Nat) : t.room (levels + 1) = t.room levels + 4 + t.share * levels := by
  rw [room, room, Nat.triangle_succ, Nat.mul_add t.share]
  omega

def Nests (t : Tally) (nested : Nested) (b : Nat) : Prop :=
  ∀ scope power c, t.Bounds (nested scope power) c fun e c' =>
    e.height + t.ahead c' ≤ b + t.ahead c

theorem height_numberLiteral {token : Token} {e : Expr} (h : numberLiteral token = .ok e) :
    e.height = 1 := by
  unfold numberLiteral at h
  dsimp only at h
  split at h
  · cases h
  split at h
  · split at h <;> cases h
    rw [height]
  · split at h <;> split at h <;> cases h <;> rw [height]

theorem height_negated_le (e : Expr) : (negated e).height ≤ max 1 e.height + 1 := by
  unfold negated
  split
  · exact Nat.le_add_left _ _
  · exact Nat.le_add_left _ _
  · rw [height, height]

variable {nested : Nested} {b : Nat} {c : Cursor}

-- ---------------------------------------------------------------------------
-- Lists of expressions
-- ---------------------------------------------------------------------------

namespace Nests

variable (hn : t.Nests nested b)
include hn

theorem sequenceLoop (scope : Scope) (close separator : TokenKind) (fuel : Nat) (filled : Bool) :
    t.Bounds (sequenceLoop nested scope close separator fuel filled) c fun es c' =>
      heightAll es + t.ahead c' ≤ b + t.ahead c := by
  induction fuel generalizing filled c with
  | zero => exact .unexpected
  | succ fuel ih =>
    unfold Parser.sequenceLoop
    refine .look (exec_kind c) ?_
    split
    · refine .bind .advance fun _ c' hle _ => .pure ?_
      rw [heightAll]
      omega
    split
    · split
      · exact .bind .advance fun _ c' hle _ => (ih false).mono fun es c'' _ h => by omega
      · exact .unexpected
    split
    · exact .unexpected
    · refine .bind (hn scope .default c) fun e c₁ hle he => ?_
      refine .bind (ih true) fun es c₂ hle' hes => .pure ?_
      rw [heightAll]
      omega

theorem sequence (scope : Scope) (close separator : TokenKind) :
    t.Bounds (sequence nested scope close separator) c fun es c' =>
      heightAll es + t.ahead c' ≤ b + t.ahead c := by
  unfold Parser.sequence
  exact .look (exec_rounds c) (hn.sequenceLoop _ _ _ _ _)

theorem arguments :
    t.Bounds (arguments nested) c fun es c' => heightAll es + t.ahead c' ≤ b + t.ahead c := by
  unfold Parser.arguments
  exact .bind (.expect _) fun _ c₁ hle _ => (hn.sequence _ _ _).mono fun es c' _ h => by omega

theorem statements (scope : Scope) (close : TokenKind) :
    t.Bounds (statements nested scope close) c fun e c' => e.height + t.ahead c' ≤
      b + 1 + t.ahead c := by
  unfold Parser.statements
  refine .look (exec_kind c) ?_
  split
  · exact .unexpected
  · refine .bind (hn.sequence _ _ _) fun es c' hle hes => .pure ?_
    have hchained := height_chained_le es
    omega

theorem group :
    t.Bounds (group nested) c fun e c' => e.height + t.ahead c' ≤ b + 2 + t.ahead c := by
  unfold Parser.group
  refine .bind (.expect _) fun _ c₁ hle _ =>
    .bind (hn.statements _ _) fun e c' hle' he => .pure ?_
  rw [height]
  omega

theorem array :
    t.Bounds (array nested) c fun e c' => e.height + t.ahead c' ≤ b + 2 + t.ahead c := by
  unfold Parser.array
  refine .bind (.expect _) fun _ c₁ hle _ =>
    .bind (hn.sequence _ _ _) fun es c' hle' hes => .pure ?_
  rw [height]
  omega

theorem body :
    t.Bounds (body nested) c fun e c' => e.height + t.ahead c' ≤ b + 1 + t.ahead c := by
  unfold Parser.body
  exact .bind (.expect _) fun _ c₁ hle _ => (hn.statements _ _).mono fun e c' _ h => by omega

-- ---------------------------------------------------------------------------
-- Objects
-- ---------------------------------------------------------------------------

theorem objectEntry :
    t.Bounds (objectEntry nested) c fun e c' => heightEntry e + t.ahead c' ≤
      b + 1 + t.ahead c := by
  unfold Parser.objectEntry
  refine .look (exec_current c) (.look (exec_nextKind c) ?_)
  dsimp only
  split
  · refine .bind .advance fun _ c' hle _ => .pure ?_
    rw [heightEntry, heightOption]
    omega
  split
  · refine .bind .advance fun _ c' hle _ => .pure ?_
    rw [heightEntry, height, height]
    omega
  split
  · refine .bind .advance fun _ c₁ hle _ => .bind .advance fun _ c₂ hle' _ => ?_
    refine .bind (hn .object .default c₂) fun e c' hle'' he => .pure ?_
    rw [heightEntry, height]
    omega
  · refine .bind (hn .object .default c) fun key c₁ hle hkey => ?_
    split
    · refine .pure ?_
      rw [heightEntry, heightOption]
      omega
    split
    · have hdrop := heightOption_dropLast?_le key
      refine .pure ?_
      rw [heightEntry]
      omega
    · refine .bind (.expect _) fun _ c₂ hle' _ =>
        .bind (hn .object .default c₂) fun e c' hle'' he => ?_
      refine .pure ?_
      rw [heightEntry]
      omega

theorem objectLoop (fuel : Nat) :
    t.Bounds (objectLoop nested fuel) c fun es c' =>
      heightEntries es + t.ahead c' ≤ b + 1 + t.ahead c := by
  induction fuel generalizing c with
  | zero => exact .unexpected
  | succ fuel ih =>
    unfold Parser.objectLoop
    refine .look (exec_kind c) ?_
    split
    · refine .bind .advance fun _ c' hle _ => .pure ?_
      rw [heightEntries]
      omega
    · refine .bind hn.objectEntry fun e c₁ hle he => .look (exec_kind c₁) ?_
      have hrest (c₂ : Cursor) (hle' : t.ahead c₂ ≤ t.ahead c₁) :
          t.Bounds (do return e :: (← Parser.objectLoop nested fuel)) c₂ fun es c' =>
            heightEntries es + t.ahead c' ≤ b + 1 + t.ahead c := by
        refine .bind ih fun es c' hle'' hes => .pure ?_
        rw [heightEntries]
        omega
      split
      · exact .bind .advance fun _ c₂ hle' _ => hrest c₂ hle'
      split
      · exact .bind (Q := fun _ _ => True) .unexpected fun _ _ hle' _ => hrest _ hle'
      · exact hrest c₁ (Nat.le_refl _)

theorem object :
    t.Bounds (object nested) c fun e c' => e.height + t.ahead c' ≤ b + 2 + t.ahead c := by
  unfold Parser.object
  refine .bind (.expect _) fun _ c₁ hle _ => .look (exec_rounds c₁) ?_
  refine .bind (hn.objectLoop _) fun es c' hle' hes => .pure ?_
  rw [height]
  omega

-- ---------------------------------------------------------------------------
-- Steps of a chain
-- ---------------------------------------------------------------------------

theorem rangeBound (absentBefore : TokenKind) :
    t.Bounds (bound nested absentBefore) c fun e c' => heightOption e + t.ahead c' ≤
      b + t.ahead c := by
  unfold Parser.bound
  refine .look (exec_kind c) ?_
  split
  · refine .pure ?_
    rw [heightOption]
    omega
  · refine .bind (hn .brackets .default c) fun e c' hle he => .pure ?_
    rw [heightOption]
    omega

theorem brackets :
    t.Bounds (brackets nested) c fun e c' => e.height + t.ahead c' ≤ b + 2 + t.ahead c := by
  unfold Parser.brackets
  refine .bind (.expect _) fun _ c₁ hle _ =>
    .look (exec_kind c₁) (.look (exec_nextKind c₁) ?_)
  split
  · refine .bind .advance fun _ c₂ hle' _ => .bind .advance fun _ c' hle'' _ => .pure ?_
    rw [height]
    omega
  · refine .bind (hn.rangeBound _) fun start c₂ hle' hstart => .look (exec_kind c₂) ?_
    split
    · refine .bind .advance fun _ c' hle'' _ => .pure ?_
      rw [heightOption] at hstart
      rw [height]
      omega
    · refine .bind (.expect _) fun _ c₃ hle'' _ =>
        .bind (hn.rangeBound _) fun stop c₄ hle₄ hstop => ?_
      refine .bind (.expect _) fun _ c' hle₅ _ => .pure ?_
      rw [height]
      omega

omit hn in
theorem descent : t.Bounds descent c fun e c' => e.height + t.ahead c' ≤ 1 + t.ahead c := by
  unfold Parser.descent
  refine .look (exec_current c) ?_
  have hword (target : DescentTarget) : t.Bounds (do advance; return Expr.descend target) c
      fun e c' => e.height + t.ahead c' ≤ 1 + t.ahead c := by
    refine .bind .advance fun _ c' hle _ => .pure ?_
    rw [height]
    omega
  split
  · exact hword _
  · exact hword _
  · exact hword _
  · exact hword _
  · refine .bind .advance fun _ c₁ hle _ => .look (exec_current c₁) ?_
    split
    · refine .bind .advance fun _ c₂ hle' _ => .bind (.expect _) fun _ c' hle'' _ => .pure ?_
      rw [height]
      omega
    · exact .throw _
    · exact .throw _
  · exact .unexpected

/-- Each further condition nests one level deeper, for which its first word has been taken. -/
theorem conditional (fuel : Nat) :
    t.Bounds (conditional nested fuel) c fun e c' =>
      e.height + t.ahead c' + t.weight c.kind ≤ b + 2 + t.ahead c := by
  induction fuel generalizing c with
  | zero => exact .unexpected
  | succ fuel ih =>
    unfold Parser.conditional
    refine .bind .advance fun _ c₁ _ hle => .bind (.expect _) fun _ c₂ hle₂ _ => ?_
    refine .bind (hn.statements _ _) fun condition c₃ hle₃ hcondition => ?_
    refine .bind hn.body fun consequence c₄ hle₄ hconsequence => .look (exec_kind c₄) ?_
    split
    · rename_i hkind
      refine .bind ih fun e c' hle₅ he => .pure ?_
      rw [hkind, weight, t.elseIf, if_pos rfl] at he
      rw [height, heightOption]
      omega
    · refine .bind .advance fun _ c₅ hle₅ _ => .bind hn.body fun e c' hle₆ he => .pure ?_
      rw [height, heightOption]
      omega
    · refine .pure ?_
      rw [height, heightOption]
      omega

theorem collection (word : Keyword) :
    t.Bounds (collection nested word) c fun e c' => e.height + t.ahead c' ≤
      b + 1 + t.ahead c := by
  unfold Parser.collection
  refine .look (exec_current c) (.bind .advance fun _ c₁ hle _ => ?_)
  refine .bind hn.arguments fun es c' hle' hes => ?_
  split
  · exact .throw _
  · have hchained := height_chained_le es
    refine .pure ?_
    omega

omit hn in
theorem direction : t.Bounds direction c fun _ _ => True := by
  unfold Parser.direction
  refine .look (exec_kind c) ?_
  split
  · refine .bind .advance fun _ c₁ _ _ => .look (exec_kind c₁) ?_
    split
    · exact .bind .advance fun _ _ _ _ => .pure trivial
    · exact .bind .advance fun _ _ _ _ => .pure trivial
    · exact .unexpected
  · exact .pure trivial

theorem sortBy :
    t.Bounds (sortBy nested) c fun e c' => e.height + t.ahead c' ≤ b + 2 + t.ahead c := by
  unfold Parser.sortBy
  refine .bind .advance fun _ c₁ hle _ => .bind (.expect _) fun _ c₂ hle₂ _ => ?_
  refine .bind (hn .arguments .default c₂) fun key c₃ hle₃ hkey => ?_
  refine .bind direction fun _ c₄ hle₄ _ => .bind (.expect _) fun _ c' hle₅ _ => .pure ?_
  rw [height]
  omega

theorem construct (word : Keyword) :
    t.Bounds (construct nested word) c fun e c' => e.height + t.ahead c' ≤ b + 2 + t.ahead c := by
  have hcollection (word : Keyword) {f : Expr → Expr} (hf : ∀ e, (f e).height = e.height + 1) :
      t.Bounds (do return f (← Parser.collection nested word)) c fun e c' =>
        e.height + t.ahead c' ≤ b + 2 + t.ahead c := by
    refine .bind (hn.collection word) fun e c' _ he => .pure ?_
    rw [hf]
    omega
  cases word with
  | ifThen => exact .look (exec_rounds c) ((hn.conditional _).mono fun e c' _ he => by omega)
  | branch =>
    refine .bind .advance fun _ c₁ hle _ => .bind hn.arguments fun es c' hle' hes => .pure ?_
    rw [height]
    omega
  | map => exact hcollection .map fun e => by rw [height]
  | filter => exact hcollection .filter fun e => by rw [height]
  | each => exact hcollection .each fun e => by rw [height]
  | search => exact hcollection .search fun e => by rw [height]
  | sortBy => exact hn.sortBy
  | elseIf | elseThen | asc | desc => exact .unexpected

theorem primary :
    t.Bounds (primary nested) c fun e c' => e.height + t.ahead c' ≤ b + 2 + t.ahead c := by
  unfold Parser.primary
  refine .look (exec_current c) (.look (exec_nextKind c) ?_)
  have hleaf {e : Expr} (h : e.height = 1) : t.Bounds (do Parser.advance; return e) c
      fun e c' => e.height + t.ahead c' ≤ b + 2 + t.ahead c := by
    refine .bind .advance fun _ c' hle _ => .pure ?_
    rw [h]
    omega
  split
  · exact hleaf (by rw [height])
  split
  case h_1 =>
    refine .bind .advance fun _ c' hle _ => ?_
    split
    · rename_i e he
      have hheight := height_numberLiteral he
      exact .pure (by omega)
    · exact .throw _
  case h_7 =>
    refine .bind .advance fun _ c₁ hle _ => .look (exec_kind c₁) ?_
    split
    · refine .bind hn.arguments fun es c' hle' hes => .pure ?_
      rw [height]
      omega
    · refine .pure ?_
      rw [height]
      omega
  case h_9 => exact .bind .advance fun _ c₁ hle _ => descent.mono fun e c' _ he => by omega
  case h_10 => exact hn.group
  case h_11 => exact hn.array
  case h_12 => exact hn.object
  case h_13 word _ => exact hn.construct word
  case h_14 => exact .unexpected
  all_goals exact hleaf (by rw [height])

theorem furtherSteps (fuel : Nat) :
    t.Bounds (furtherSteps nested fuel) c fun es c' => heightAll es + t.ahead c' ≤
      b + 2 + t.ahead c := by
  induction fuel generalizing c with
  | zero =>
    refine .pure ?_
    rw [heightAll]
    omega
  | succ fuel ih =>
    have hmore {e : Expr} {c₁ : Cursor} (hle : t.ahead c₁ ≤ t.ahead c)
        (he : e.height + t.ahead c₁ ≤ b + 2 + t.ahead c) :
        t.Bounds (do return e :: (← Parser.furtherSteps nested fuel)) c₁ fun es c' =>
          heightAll es + t.ahead c' ≤ b + 2 + t.ahead c := by
      refine .bind ih fun es c' hle' hes => .pure ?_
      rw [heightAll]
      omega
    unfold Parser.furtherSteps
    refine .look (exec_kind c) ?_
    split
    · exact .bind .advance fun _ c₁ hle _ => .bind hn.primary fun e c₂ hle' he =>
        hmore (by omega) (by omega)
    · exact .bind .advance fun _ c₁ hle _ => .bind descent fun e c₂ hle' he =>
        hmore (by omega) (by omega)
    · exact .bind hn.brackets fun e c₁ hle he => hmore hle he
    · refine .bind .advance fun _ c₁ hle _ => hmore hle ?_
      rw [height]
      omega
    · refine .pure ?_
      rw [heightAll]
      omega

theorem chain :
    t.Bounds (chain nested) c fun e c' => e.height + t.ahead c' ≤ b + 3 + t.ahead c := by
  unfold Parser.chain
  refine .bind hn.primary fun first c₁ hle hfirst => .look (exec_rounds c₁) ?_
  refine .bind (hn.furtherSteps _) fun further c' hle' hfurther => .pure ?_
  have hchained := height_chained_le (first :: further)
  rw [heightAll] at hchained
  omega

-- ---------------------------------------------------------------------------
-- Operators
-- ---------------------------------------------------------------------------

theorem operand (scope : Scope) :
    t.Bounds (operand nested scope) c fun e c' => e.height + t.ahead c' ≤ b + 4 + t.ahead c := by
  unfold Parser.operand
  refine .look (exec_kind c) ?_
  split
  · refine .bind .advance fun _ c₁ hle _ =>
      .bind (hn scope .unary c₁) fun e c' hle' he => .pure ?_
    rw [height]
    omega
  · refine .bind .advance fun _ c₁ hle _ => .bind hn.chain fun e c' hle' he => .pure ?_
    have hnegated := height_negated_le e
    omega
  · exact hn.chain.mono fun e c' _ he => by omega

/-- An infix token adds a level to both sides; it is counted, or the level is in the tally's
share. -/
theorem fold (scope : Scope) (left : Expr) {power : BindingPower}
    (hpower : BindingPower.ofToken? c.kind = some power) :
    t.Bounds (fold nested scope left power) c fun e c' =>
      e.height + t.ahead c' ≤ max left.height b + t.share + t.ahead c := by
  have hpaid : 1 ≤ t.weight c.kind + t.share := by
    rcases t.operator (Option.isSome_of_eq_some hpower) with h | h
    · rw [weight, if_pos h]
      omega
    · omega
  unfold Parser.fold
  refine .look (exec_current c) (.bind .advance fun _ c₁ _ hle => ?_)
  have hright {f : Expr → Expr} (hf : ∀ e, (f e).height = max left.height e.height + 1)
      (power : BindingPower) : t.Bounds (do return f (← nested scope power)) c₁ fun e c' =>
        e.height + t.ahead c' ≤ max left.height b + t.share + t.ahead c := by
    refine .bind (hn scope power c₁) fun e c' hle' he => .pure ?_
    rw [hf]
    omega
  split
  · exact hright (fun e => by rw [height]) _
  · exact hright (fun e => by rw [height]) _
  · exact hright (fun e => by rw [height]) _
  · split
    · exact hright (fun e => by rw [height]) _
    · exact .throw _

theorem folds (scope : Scope) (power : BindingPower) (levels : Nat) (left : Expr) :
    t.Bounds (folds nested scope power levels left) c fun e c' =>
      e.height + t.ahead c' ≤ max left.height b + t.share * levels + t.ahead c := by
  induction levels generalizing left c with
  | zero =>
    unfold Parser.folds
    refine .look (exec_kind c) ?_
    split
    · split
      · exact .tooDeep
      · exact .pure (by omega)
    · exact .pure (by omega)
  | succ levels ih =>
    unfold Parser.folds
    refine .look (exec_kind c) ?_
    split
    · rename_i p hp
      split
      · refine .bind (hn.fold scope left hp) fun e c₁ hle he =>
          (ih e).mono fun e' c' hle' he' => ?_
        rw [Nat.mul_succ]
        omega
      · exact .pure (by omega)
    · exact .pure (by omega)

end Nests

theorem nests_expression (t : Tally) (levels : Nat) :
    t.Nests (expression levels) (t.room levels) := by
  induction levels with
  | zero => exact fun _ _ _ => .tooDeep
  | succ levels ih =>
    intro scope power c
    unfold expression
    refine .bind (ih.operand scope) fun left c₁ hle hleft => ?_
    refine .bind (ih.folds scope power levels left) fun e c₂ hle' he => ?_
    refine .bind (.expectEnd scope) fun _ c' _ hc => .pure ?_
    rw [hc, t.room_succ]
    omega

theorem bounds_selector (t : Tally) :
    t.Bounds selector c fun e c' => e.height + t.ahead c' ≤ t.room maxDepth + 1 + t.ahead c := by
  unfold selector
  refine .bind ((t.nests_expression maxDepth).sequence _ _ _) fun es c' _ hes => .pure ?_
  have hchained := height_chained_le es
  omega

theorem height_parseTokens_le (t : Tally) {tokens : List Token} {e : Expr}
    (h : parseTokens tokens = .ok e) : e.height ≤ t.room maxDepth + 1 + t.count tokens := by
  unfold parseTokens at h
  rcases hx : selector.exec (Cursor.ofTokens tokens) with ⟨r, c⟩
  have hr : r = .ok e := by
    rw [← h, ← Parser.exec, hx]
  subst hr
  obtain ⟨-, -, hle⟩ := t.bounds_selector (Cursor.ended_ofTokens tokens) e c hx
  rw [t.ahead_ofTokens] at hle
  omega

end Tally

end DocSelect
