import DocSelect.Proofs.Brackets.Matching
import DocSelect.Proofs.Nesting.Tally

/-!
# The brackets of the productions

What a production takes is a run of tokens with matched brackets. Those that take a closing bracket
by itself say so: they begin with that bracket still to be closed, and end without it.
-/
namespace DocSelect

open DocSelect.Parser

/-- Where a parser succeeds, the tokens that it has taken lead from the one to the other brackets
that are still to be closed. -/
def Parser.Balances {α : Type} (x : Parser α) (c : Cursor) (before after : List TokenKind) :
    Prop :=
  c.Ended → ∀ r c', x.exec c = (.ok r, c') →
    c'.Ended ∧ ∃ taken : List Token, c.toList = taken ++ c'.toList ∧
      pendingAfter before (taken.map Token.kind) = some after

namespace Parser.Balances

variable {α β : Type} {x : Parser α} {c : Cursor} {before mid after stack : List TokenKind}
  {k close : TokenKind}

theorem of_exec {r : α} (h : x.exec c = (.ok r, c)) : Balances x c stack stack := by
  intro hc r' c' h'
  rw [h] at h'
  cases h'
  exact ⟨hc, [], rfl, rfl⟩

theorem pure (r : α) : Balances (pure r) c stack stack := of_exec rfl

theorem throw (e : ParseError) : Balances (throw e : Parser α) c before after :=
  fun _ _ _ h => by cases h

theorem unexpected : Balances (unexpected : Parser α) c before after := fun _ _ _ h => by cases h

theorem tooDeep : Balances (tooDeep : Parser α) c before after := fun _ _ _ h => by cases h

theorem bind {f : α → Parser β} (h : Balances x c before mid)
    (hf : ∀ r c', Balances (f r) c' mid after) : Balances (x >>= f) c before after := by
  intro hc r c' hx
  rw [exec_bind] at hx
  rcases hfirst : x.exec c with ⟨e | a, c₁⟩ <;> rw [hfirst] at hx
  · cases hx
  · obtain ⟨hc₁, taken, htaken, hmid⟩ := h hc a c₁ hfirst
    obtain ⟨hc', taken', htaken', hafter⟩ := hf a c₁ hc₁ r c' hx
    refine ⟨hc', taken ++ taken', by rw [htaken, htaken', List.append_assoc], ?_⟩
    rw [List.map_append]
    exact pendingAfter_append hmid hafter

theorem look {f : α → Parser β} {r : α} (h : x.exec c = (.ok r, c))
    (hf : Balances (f r) c before after) : Balances (x >>= f) c before after := by
  intro hc r' c' hx
  rw [exec_bind, h] at hx
  exact hf hc r' c' hx

theorem advance (h : pending before c.kind = some after) : Balances advance c before after := by
  intro hc _ c' hx
  cases hx
  refine ⟨hc.advance, ?_⟩
  unfold Cursor.advance
  split
  · -- the end of the input is no bracket
    rename_i hrest
    rw [hc.kind_eq hrest] at h
    cases h
    exact ⟨[], rfl, rfl⟩
  · rename_i next rest hrest
    refine ⟨[c.current], by rw [Cursor.toList, hrest]; rfl, ?_⟩
    rw [List.map_singleton, pendingAfter_cons,
      show pending before c.current.kind = some after from h]
    rfl

theorem take {f : Unit → Parser β} (h : pending before c.kind = some mid)
    (hf : Balances (f ()) c.advance mid after) :
    Balances (Parser.advance >>= f) c before after := by
  intro hc r c' hx
  rw [exec_bind, exec_advance] at hx
  obtain ⟨hc₁, taken, htaken, hmid⟩ := advance h hc () c.advance rfl
  obtain ⟨hc', taken', htaken', hafter⟩ := hf hc₁ r c' hx
  refine ⟨hc', taken ++ taken', by rw [htaken, htaken', List.append_assoc], ?_⟩
  rw [List.map_append]
  exact pendingAfter_append hmid hafter

theorem token {f : Unit → Parser β} (h : c.kind.isBracket = false)
    (hf : Balances (f ()) c.advance stack after) : Balances (Parser.advance >>= f) c stack after :=
  take (pending_of_not_bracket h stack) hf

theorem expect (h : pending before k = some after) : Balances (expect k) c before after := by
  unfold Parser.expect
  refine look (exec_kind c) ?_
  split
  · rename_i hk
    exact advance (hk ▸ h)
  · exact unexpected

theorem expectEnd (scope : Scope) : Balances (expectEnd scope) c stack stack := by
  unfold Parser.expectEnd
  refine look (exec_kind c) ?_
  split
  · exact pure ()
  · exact unexpected

end Parser.Balances

def Parser.Nested.Balanced (nested : Nested) : Prop :=
  ∀ scope power c stack, Balances (nested scope power) c stack stack

namespace Parser.Nested.Balanced

variable {nested : Nested} {c : Cursor} {stack after : List TokenKind} {close separator : TokenKind}

-- ---------------------------------------------------------------------------
-- Tokens
-- ---------------------------------------------------------------------------

theorem not_bracket_of_isPlainKey {k : TokenKind} (h : isPlainKey k = true) :
    k.isBracket = false := by
  cases k <;> first | rfl | cases h

theorem not_bracket_of_isPropertyWord {k : TokenKind} (h : isPropertyWord k = true) :
    k.isBracket = false := by
  cases k <;> first | rfl | cases h

theorem not_bracket_of_binds {k : TokenKind} (h : (BindingPower.ofToken? k).isSome = true) :
    k.isBracket = false := by
  cases k <;> first | rfl | cases h

theorem kind_of_numberLiteral {token : Token} {e : Expr} (h : numberLiteral token = .ok e) :
    token.kind = .number := by
  unfold numberLiteral at h
  dsimp only at h
  split at h
  · cases h
  · rename_i hk
    exact Decidable.not_not.1 hk

-- ---------------------------------------------------------------------------
-- Lists of expressions
-- ---------------------------------------------------------------------------

section
variable (hn : nested.Balanced)
include hn

theorem sequenceLoop (scope : Scope) (hclose : pending stack close = some after)
    (hseparator : separator.isBracket = false) (fuel : Nat) (filled : Bool) :
    Balances (sequenceLoop nested scope close separator fuel filled) c stack after := by
  induction fuel generalizing filled c with
  | zero => exact .unexpected
  | succ fuel ih =>
    unfold Parser.sequenceLoop
    refine .look (exec_kind c) ?_
    split
    · rename_i hk
      exact .take (hk ▸ hclose) (.pure _)
    split
    · rename_i hk
      split
      · exact .token (hk ▸ hseparator) (ih false)
      · exact .unexpected
    split
    · exact .unexpected
    · exact .bind (hn scope .default c stack) fun _ _ => .bind (ih true) fun _ _ => .pure _

theorem sequence (scope : Scope) (hclose : pending stack close = some after)
    (hseparator : separator.isBracket = false) :
    Balances (sequence nested scope close separator) c stack after := by
  unfold Parser.sequence
  exact .look (exec_rounds c) (hn.sequenceLoop scope hclose hseparator _ _)

theorem arguments : Balances (arguments nested) c stack stack := by
  unfold Parser.arguments
  exact .bind (.expect rfl) fun _ _ => hn.sequence _ rfl rfl

theorem statements (scope : Scope) (hclose : pending stack close = some after) :
    Balances (statements nested scope close) c stack after := by
  unfold Parser.statements
  refine .look (exec_kind c) ?_
  split
  · exact .unexpected
  · exact .bind (hn.sequence scope hclose rfl) fun _ _ => .pure _

theorem group : Balances (group nested) c stack stack := by
  unfold Parser.group
  exact .bind (.expect rfl) fun _ _ => .bind (hn.statements _ rfl) fun _ _ => .pure _

theorem array : Balances (array nested) c stack stack := by
  unfold Parser.array
  exact .bind (.expect rfl) fun _ _ => .bind (hn.sequence _ rfl rfl) fun _ _ => .pure _

theorem body : Balances (body nested) c stack stack := by
  unfold Parser.body
  exact .bind (.expect rfl) fun _ _ => hn.statements _ rfl

-- ---------------------------------------------------------------------------
-- Objects
-- ---------------------------------------------------------------------------

theorem objectEntry : Balances (objectEntry nested) c stack stack := by
  unfold Parser.objectEntry
  refine .look (exec_current c) (.look (exec_nextKind c) ?_)
  dsimp only
  split
  · rename_i h
    exact .token (by rw [Cursor.kind, h.1]; rfl) (.pure _)
  split
  · rename_i h
    exact .token (by rw [Cursor.kind, h.1]; rfl) (.pure _)
  split
  · rename_i h
    refine .token (not_bracket_of_isPlainKey h.1) (.token ?_ ?_)
    · rw [Cursor.kind_advance, h.2]
      rfl
    · exact .bind (hn .object .default _ stack) fun _ _ => .pure _
  · refine .bind (hn .object .default c stack) fun key _ => ?_
    split
    · exact .pure _
    split
    · exact .pure _
    · exact .bind (.expect rfl) fun _ _ => .bind (hn .object .default _ stack) fun _ _ => .pure _

theorem objectLoop (hclose : pending stack .closeBrace = some after) (fuel : Nat) :
    Balances (objectLoop nested fuel) c stack after := by
  induction fuel generalizing c with
  | zero => exact .unexpected
  | succ fuel ih =>
    unfold Parser.objectLoop
    refine .look (exec_kind c) ?_
    split
    · rename_i hk
      exact .take (hk ▸ hclose) (.pure _)
    · refine .bind hn.objectEntry fun entry c₁ => .look (exec_kind c₁) ?_
      have hrest (c₂ : Cursor) :
          Balances (do return entry :: (← Parser.objectLoop nested fuel)) c₂ stack after :=
        .bind ih fun _ _ => .pure _
      split
      · rename_i hk
        exact .token (by rw [hk]; rfl) (hrest _)
      split
      · exact .bind .unexpected fun _ _ => hrest _
      · exact hrest c₁

theorem object : Balances (object nested) c stack stack := by
  unfold Parser.object
  refine .bind (.expect rfl) fun _ c₁ => .look (exec_rounds c₁) ?_
  exact .bind (hn.objectLoop rfl _) fun _ _ => .pure _

-- ---------------------------------------------------------------------------
-- Steps of a chain
-- ---------------------------------------------------------------------------

theorem rangeBound (absentBefore : TokenKind) :
    Balances (bound nested absentBefore) c stack stack := by
  unfold Parser.bound
  refine .look (exec_kind c) ?_
  split
  · exact .pure _
  · exact .bind (hn .brackets .default c stack) fun _ _ => .pure _

theorem brackets : Balances (brackets nested) c stack stack := by
  unfold Parser.brackets
  refine .bind (.expect rfl) fun _ c₁ => .look (exec_kind c₁) (.look (exec_nextKind c₁) ?_)
  split
  · rename_i h
    refine .token (by rw [h.1]; rfl) (.take ?_ (.pure _))
    rw [Cursor.kind_advance, h.2]
    rfl
  · refine .bind (hn.rangeBound _) fun start c₂ => .look (exec_kind c₂) ?_
    split
    · rename_i hk
      exact .take (by rw [hk]; rfl) (.pure _)
    · refine .bind (.expect rfl) fun _ _ => .bind (hn.rangeBound _) fun _ _ => ?_
      exact .bind (.expect rfl) fun _ _ => .pure _

omit hn in
theorem descent : Balances descent c stack stack := by
  unfold Parser.descent
  refine .look (exec_current c) ?_
  split
  case h_5 h =>
    refine .take (show pending stack c.current.kind = _ by rw [h]; rfl) (.look (exec_current _) ?_)
    split
    · rename_i i hnumber
      have hnumber := kind_of_numberLiteral hnumber
      exact .token (show c.advance.current.kind.isBracket = false by rw [hnumber]; rfl)
        (.bind (.expect rfl) fun _ _ => .pure _)
    · exact .throw _
    · exact .throw _
  case h_6 => exact .unexpected
  all_goals
    rename_i h
    exact .token (show c.current.kind.isBracket = false by rw [h]; rfl) (.pure _)

theorem conditional {word : Keyword} (hk : c.kind = .keyword word) (fuel : Nat) :
    Balances (conditional nested fuel) c stack stack := by
  induction fuel generalizing c word with
  | zero => exact .unexpected
  | succ fuel ih =>
    unfold Parser.conditional
    refine .token (by rw [hk]; rfl) (.bind (.expect rfl) fun _ _ =>
      .bind (hn.statements _ rfl) fun _ _ => ?_)
    refine .bind hn.body fun _ c₁ => .look (exec_kind c₁) ?_
    split
    · rename_i hkind
      exact .bind (ih hkind) fun _ _ => .pure _
    · rename_i hkind
      exact .token (by rw [hkind]; rfl) (.bind hn.body fun _ _ => .pure _)
    · exact .pure _

theorem collection {word : Keyword} (hk : c.kind = .keyword word) :
    Balances (collection nested word) c stack stack := by
  unfold Parser.collection
  refine .look (exec_current c) (.token (by rw [hk]; rfl) (.bind hn.arguments fun es _ => ?_))
  split
  · exact .throw _
  · exact .pure _

omit hn in
theorem direction : Balances direction c stack stack := by
  unfold Parser.direction
  refine .look (exec_kind c) ?_
  split
  · rename_i hk
    refine .token (by rw [hk]; rfl) (.look (exec_kind _) ?_)
    split
    · rename_i hword
      exact .token (by rw [hword]; rfl) (.pure _)
    · rename_i hword
      exact .token (by rw [hword]; rfl) (.pure _)
    · exact .unexpected
  · exact .pure _

theorem sortBy {word : Keyword} (hk : c.kind = .keyword word) :
    Balances (sortBy nested) c stack stack := by
  unfold Parser.sortBy
  refine .token (by rw [hk]; rfl) (.bind (.expect rfl) fun _ _ => ?_)
  refine .bind (hn .arguments .default _ _) fun _ _ => .bind direction fun _ _ => ?_
  exact .bind (.expect rfl) fun _ _ => .pure _

theorem construct {word : Keyword} (hk : c.kind = .keyword word) :
    Balances (construct nested word) c stack stack := by
  cases word with
  | ifThen => exact .look (exec_rounds c) (hn.conditional hk _)
  | branch => exact .token (by rw [hk]; rfl) (.bind hn.arguments fun _ _ => .pure _)
  | map | filter | each | search => exact .bind (hn.collection hk) fun _ _ => .pure _
  | sortBy => exact hn.sortBy hk
  | elseIf | elseThen | asc | desc => exact .unexpected

theorem primary : Balances (primary nested) c stack stack := by
  unfold Parser.primary
  refine .look (exec_current c) (.look (exec_nextKind c) ?_)
  split
  · rename_i h
    exact .token (not_bracket_of_isPropertyWord h.1) (.pure _)
  split
  case h_1 h =>
    refine .token (show c.current.kind.isBracket = false by rw [h]; rfl) ?_
    split
    · exact .pure _
    · exact .throw _
  case h_7 h =>
    refine .token (show c.current.kind.isBracket = false by rw [h]; rfl) (.look (exec_kind _) ?_)
    split
    · exact .bind hn.arguments fun _ _ => .pure _
    · exact .pure _
  case h_9 h => exact .token (show c.current.kind.isBracket = false by rw [h]; rfl) descent
  case h_10 => exact hn.group
  case h_11 => exact hn.array
  case h_12 => exact hn.object
  case h_13 word h => exact hn.construct h
  case h_14 => exact .unexpected
  all_goals
    rename_i h
    exact .token (show c.current.kind.isBracket = false by rw [h]; rfl) (.pure _)

theorem furtherSteps (fuel : Nat) : Balances (furtherSteps nested fuel) c stack stack := by
  induction fuel generalizing c with
  | zero => exact .pure _
  | succ fuel ih =>
    have hmore {c₁ : Cursor} (e : Expr) :
        Balances (do return e :: (← Parser.furtherSteps nested fuel)) c₁ stack stack :=
      .bind ih fun _ _ => .pure _
    unfold Parser.furtherSteps
    refine .look (exec_kind c) ?_
    split
    · rename_i h
      exact .token (by rw [h]; rfl) (.bind hn.primary fun _ _ => hmore _)
    · rename_i h
      exact .token (by rw [h]; rfl) (.bind descent fun _ _ => hmore _)
    · exact .bind hn.brackets fun _ _ => hmore _
    · rename_i h
      exact .token (by rw [h]; rfl) (hmore _)
    · exact .pure _

theorem chain : Balances (chain nested) c stack stack := by
  unfold Parser.chain
  refine .bind hn.primary fun first c₁ => .look (exec_rounds c₁) ?_
  exact .bind (hn.furtherSteps _) fun _ _ => .pure _

-- ---------------------------------------------------------------------------
-- Operators
-- ---------------------------------------------------------------------------

theorem operand (scope : Scope) : Balances (operand nested scope) c stack stack := by
  unfold Parser.operand
  refine .look (exec_kind c) ?_
  split
  · rename_i h
    exact .token (by rw [h]; rfl) (.bind (hn scope .unary _ stack) fun _ _ => .pure _)
  · rename_i h
    exact .token (by rw [h]; rfl) (.bind hn.chain fun _ _ => .pure _)
  · exact hn.chain

theorem fold (scope : Scope) (left : Expr) (power : BindingPower)
    (hk : (BindingPower.ofToken? c.kind).isSome = true) :
    Balances (fold nested scope left power) c stack stack := by
  unfold Parser.fold
  refine .look (exec_current c) (.token (not_bracket_of_binds hk) ?_)
  split
  · exact .bind (hn scope .default _ stack) fun _ _ => .pure _
  · exact .bind (hn scope .default _ stack) fun _ _ => .pure _
  · exact .bind (hn scope .default _ stack) fun _ _ => .pure _
  · split
    · exact .bind (hn scope power _ stack) fun _ _ => .pure _
    · exact .throw _

theorem folds (scope : Scope) (power : BindingPower) (levels : Nat) (left : Expr) :
    Balances (folds nested scope power levels left) c stack stack := by
  induction levels generalizing c left with
  | zero =>
    unfold Parser.folds
    refine .look (exec_kind c) ?_
    split
    · split
      · exact .tooDeep
      · exact .pure _
    · exact .pure _
  | succ levels ih =>
    unfold Parser.folds
    refine .look (exec_kind c) ?_
    split
    · rename_i p hp
      split
      · exact .bind (hn.fold scope left p (by rw [hp]; rfl)) fun left _ => ih left
      · exact .pure _
    · exact .pure _

end

end Parser.Nested.Balanced

theorem Parser.expression_balanced (levels : Nat) : Nested.Balanced (expression levels) := by
  induction levels with
  | zero => exact fun _ _ _ _ => .tooDeep
  | succ levels ih =>
    intro scope power c stack
    unfold Parser.expression
    refine .bind (ih.operand scope) fun left _ =>
      .bind (ih.folds scope power levels left) fun _ _ => ?_
    exact .bind (.expectEnd scope) fun _ _ => .pure _

end DocSelect
