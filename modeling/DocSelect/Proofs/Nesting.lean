import DocSelect.Proofs.Nesting.Production

/-!
# How high parsed trees are

The depth that the parser counts bounds the height of a tree apart from operators and further
conditions. Operators are limited in each level, so all levels together bound them as well. The
conditions of one conditional nest in each other without being counted: there are trees of any
height.
-/
namespace DocSelect

open DocSelect.Parser DocSelect.Expr

def Token.isCondition (t : Token) : Bool := t.kind == .keyword .elseIf

def Token.isOperator (t : Token) : Bool := (BindingPower.ofToken? t.kind).isSome

/-- Without operators and further conditions the depth that is accepted bounds the height of a tree.
Each of the two adds at most one level; the operators in a tree add no more than all levels together
allow, the further conditions are not limited. -/
theorem height_le_of_parseTokens {tokens : List Token} {e : Expr} (h : parseTokens tokens = .ok e) :
    e.height ≤ 4 * maxDepth + 1 + tokens.countP (fun t => t.isCondition || t.isOperator) ∧
      e.height ≤ 4 * maxDepth + 1 + maxDepth * (maxDepth - 1) / 2 +
        tokens.countP Token.isCondition := by
  have hall : e.height ≤ 4 * maxDepth + 0 * _ + 1 +
    tokens.countP fun t => t.isCondition || t.isOperator := Tally.ofAll.height_parseTokens_le h
  have hconditions : e.height ≤ 4 * maxDepth + 1 * (maxDepth * (maxDepth - 1) / 2) + 1 +
    tokens.countP Token.isCondition := Tally.ofConditions.height_parseTokens_le h
  omega

-- ---------------------------------------------------------------------------
-- Conditionals with many conditions
-- ---------------------------------------------------------------------------

namespace Ladder

def token (k : TokenKind) : Token := ⟨k, k.text, 0, 1⟩

def rung (rest : List Token) : List Token :=
  token .openParen :: token .null :: token .closeParen ::
    token .openBrace :: token .null :: token .closeBrace :: rest

def further : Nat → List Token
  | 0 => [Token.atEnd 0]
  | n + 1 => token (.keyword .elseIf) :: rung (further n)

/-- A conditional with this many further conditions. -/
def tokens (n : Nat) : List Token := token (.keyword .ifThen) :: rung (further n)

def alternative : Nat → Option Expr
  | 0 => none
  | n + 1 => some (.conditional .null .null (alternative n))

def expr (n : Nat) : Expr := .conditional .null .null (alternative n)

theorem lt_height_expr (n : Nat) : n < (expr n).height := by
  induction n with
  | zero => decide
  | succ n ih =>
    have halternative : heightOption (alternative (n + 1)) = (expr n).height := rfl
    rw [expr, height, halternative]
    omega

@[simp] theorem kind_token (k : TokenKind) (rest : List Token) :
    Cursor.kind ⟨token k, rest⟩ = k := rfl

@[simp] theorem advance_cons (t u : Token) (rest : List Token) :
    Cursor.advance ⟨t, u :: rest⟩ = ⟨u, rest⟩ := rfl

section
variable (levels : Nat) {scope : Scope} {k : TokenKind} (rest : List Token)
  (h : scope = .group ∧ k = .closeParen ∨ scope = .body ∧ k = .closeBrace)
include h

theorem exec_expression_null :
    (expression (levels + 1) scope .default).exec ⟨token .null, token k :: rest⟩ =
      (.ok .null, ⟨token k, rest⟩) := by
  have hoperand : (operand (expression levels) scope).exec ⟨token .null, token k :: rest⟩ =
      (.ok .null, ⟨token k, rest⟩) := by
    rcases h with ⟨rfl, rfl⟩ | ⟨rfl, rfl⟩ <;> rfl
  have hfolds : (folds (expression levels) scope .default levels .null).exec ⟨token k, rest⟩ =
      (.ok .null, ⟨token k, rest⟩) := by
    unfold folds
    rcases h with ⟨-, rfl⟩ | ⟨-, rfl⟩ <;> rfl
  have hend : (expectEnd scope).exec ⟨token k, rest⟩ = (.ok (), ⟨token k, rest⟩) := by
    rcases h with ⟨rfl, rfl⟩ | ⟨rfl, rfl⟩ <;> rfl
  simp only [expression, exec_bind, hoperand, hfolds, hend, exec_pure]

theorem exec_statements_null (u : Token) :
    (statements (expression (levels + 1)) scope k).exec ⟨token .null, token k :: u :: rest⟩ =
      (.ok .null, ⟨u, rest⟩) := by
  have hk : TokenKind.null ≠ k := by
    rcases h with ⟨-, rfl⟩ | ⟨-, rfl⟩ <;> decide
  have hnull := exec_expression_null levels (u :: rest) h
  simp only [statements, Parser.sequence, exec_bind, exec_kind, kind_token, if_neg hk, exec_rounds,
    List.length_cons, sequenceLoop, reduceCtorEq, if_false, hnull, if_true, exec_advance,
      advance_cons, exec_pure]
  rfl

end

theorem exec_conditional (levels : Nat) {n fuel : Nat} (h : n < fuel) (word : Keyword) :
    (Parser.conditional (expression (levels + 1)) fuel).exec
      ⟨token (.keyword word), rung (further n)⟩ = (.ok (expr n), ⟨Token.atEnd 0, []⟩) := by
  induction fuel generalizing n word with
  | zero => exact absurd h (Nat.not_lt_zero n)
  | succ fuel ih =>
    obtain ⟨u, us, hfurther⟩ : ∃ u us, further n = u :: us := by
      cases n <;> exact ⟨_, _, rfl⟩
    have hcondition := exec_statements_null levels (token .null :: token .closeBrace :: u :: us)
      (.inl ⟨rfl, rfl⟩) (token .openBrace)
    have hconsequence := exec_statements_null levels us (.inr ⟨rfl, rfl⟩) u
    simp only [Parser.conditional, Parser.body, Parser.expect, rung, hfurther,
      exec_bind, exec_advance,
      advance_cons, exec_kind, kind_token, if_true, hcondition, hconsequence]
    cases n with
    | zero =>
      cases hfurther
      rfl
    | succ n =>
      cases hfurther
      simp only [kind_token, exec_bind, ih (Nat.lt_of_succ_lt_succ h), exec_pure]
      rfl

theorem lt_length_further (n : Nat) : n < (further n).length := by
  induction n with
  | zero => decide
  | succ n ih =>
    simp only [further, rung, List.length_cons]
    omega

theorem getLast?_further (n : Nat) : (further n).getLast? = some (Token.atEnd 0) := by
  induction n with
  | zero => rfl
  | succ n ih =>
    obtain ⟨u, us, hfurther⟩ : ∃ u us, further n = u :: us := by
      cases n <;> exact ⟨_, _, rfl⟩
    rw [hfurther] at ih
    simp only [further, rung, hfurther, List.getLast?_cons_cons, ih]

theorem ofTokens_tokens (n : Nat) :
    Cursor.ofTokens (tokens n) = ⟨token (.keyword .ifThen), rung (further n)⟩ := by
  have hlast : (tokens n).getLast? = some (Token.atEnd 0) := getLast?_further (n + 1)
  rw [Cursor.ofTokens, Cursor.ended, hlast]
  rfl

/-- A conditional is the whole of an expression, whatever follows the first condition. -/
theorem exec_expression (levels n : Nat) :
    (expression (levels + 2) .root .default).exec ⟨token (.keyword .ifThen), rung (further n)⟩ =
      (.ok (expr n), ⟨Token.atEnd 0, []⟩) := by
  have hfuel : n < (rung (further n)).length + 1 := by
    have hlt := lt_length_further n
    simp only [rung, List.length_cons]
    omega
  have hprimary : (primary (expression (levels + 1))).exec
      ⟨token (.keyword .ifThen), rung (further n)⟩ =
        (.ok (expr n), ⟨Token.atEnd 0, []⟩) := by
    have hword : (token (.keyword .ifThen)).kind = .keyword .ifThen := rfl
    simp only [primary, exec_bind, exec_current, exec_nextKind, hword, isPropertyWord,
      Bool.false_eq_true,
      false_and, if_false, construct, exec_rounds, exec_conditional levels hfuel]
  have hoperand : (operand (expression (levels + 1)) .root).exec
      ⟨token (.keyword .ifThen), rung (further n)⟩ =
        (.ok (expr n), ⟨Token.atEnd 0, []⟩) := by
    simp only [operand, exec_bind, exec_kind, kind_token, Parser.chain, hprimary]
    rfl
  have hfolds : (folds (expression (levels + 1)) .root .default (levels + 1) (expr n)).exec
      ⟨Token.atEnd 0, []⟩ = (.ok (expr n), ⟨Token.atEnd 0, []⟩) := by
    unfold folds
    rfl
  rw [expression, exec_bind, hoperand]
  dsimp only
  rw [exec_bind, hfolds]
  rfl

theorem parseTokens_tokens (n : Nat) : parseTokens (tokens n) = .ok (expr n) := by
  have hrun := exec_expression 126 n
  have hloop (fuel : Nat) :
      (sequenceLoop (expression maxDepth) .root .eof .semicolon (fuel + 2) false).exec
        ⟨token (.keyword .ifThen), rung (further n)⟩ =
          (.ok [expr n], ⟨Token.atEnd 0, []⟩) := by
    simp only [sequenceLoop, exec_bind, exec_kind, kind_token, reduceCtorEq,
      if_false, maxDepth, hrun]
    rfl
  have hsequence : (sequence (expression maxDepth) .root .eof .semicolon).exec
      ⟨token (.keyword .ifThen), rung (further n)⟩ =
        (.ok [expr n], ⟨Token.atEnd 0, []⟩) := by
    have hlength : (rung (further n)).length + 1 = (further n).length + 5 + 2 := rfl
    simp only [Parser.sequence, exec_bind, exec_rounds, hlength, hloop]
  have hselector : selector.exec ⟨token (.keyword .ifThen), rung (further n)⟩ =
      (.ok (expr n), ⟨Token.atEnd 0, []⟩) := by
    rw [selector, exec_bind, hsequence]
    rfl
  rw [parseTokens, ofTokens_tokens]
  exact congrArg Prod.fst hselector

end Ladder

/-- Each further condition is a token and a level. -/
theorem height_le_of_parseTokens_conditional :
    parseTokens (Ladder.tokens 1) = .ok (Ladder.expr 1) ∧
      (Ladder.expr 1).height ≤
        4 * maxDepth + 1 + (Ladder.tokens 1).countP (fun t => t.isCondition || t.isOperator) :=
  ⟨Ladder.parseTokens_tokens 1, (height_le_of_parseTokens (Ladder.parseTokens_tokens 1)).1⟩

theorem height_unbounded (bound : Nat) :
    ∃ tokens e, parseTokens tokens = .ok e ∧ bound < e.height :=
  ⟨Ladder.tokens bound, Ladder.expr bound, Ladder.parseTokens_tokens bound,
    Ladder.lt_height_expr bound⟩

/-- A conditional that is higher than four times the depth that is accepted. -/
theorem height_exceeds_depth :
    parseTokens (Ladder.tokens 512) = .ok (Ladder.expr 512) ∧
    4 * maxDepth < (Ladder.expr 512).height :=
  ⟨Ladder.parseTokens_tokens 512, Ladder.lt_height_expr 512⟩

end DocSelect
