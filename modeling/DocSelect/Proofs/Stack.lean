import DocSelect.Proofs.Nesting.Tally
import DocSelect.Proofs.Stack.Production

/-!
# Several expressions with one parser

After each expression that a parser has been asked for, whatever has come of it, the parser is as a
new one at the tokens that are left. So an error inside of brackets has no effect on what may end
the next expression, or on how deep it may be.
-/
namespace DocSelect

open DocSelect.Parser (maxDepth)

namespace ParserRun

/-- Before an expression no scope is open and no expression around; there is a token left, and the
last one ends the input. -/
structure Ready (r : ParserRun) : Prop where
  scopes : r.now.scopes = []
  depth : r.now.depth = 0
  place : ∃ c : Cursor, r.now.ahead = c.toList
  ended : ∀ t ∈ r.now.tokens.getLast?, t.kind = .eof
  orderly : r.Orderly

namespace Ready

variable {r : ParserRun}

theorem start (tokens : List Token) : (start tokens).Ready where
  scopes := rfl
  depth := rfl
  place := ⟨Cursor.ofTokens tokens, (Cursor.toList_ofTokens tokens).symm⟩
  ended := by
    have hended := Cursor.ended_ofTokens tokens
    rwa [Cursor.Ended, Cursor.toList_ofTokens] at hended
  orderly := ⟨.singleton _, List.forall_mem_singleton.2 (Nat.zero_le _)⟩

theorem ended_ahead (h : r.Ready) : Cursor.ended r.now.ahead = r.now.ahead := by
  obtain ⟨c, hc⟩ := h.place
  have hlast : r.now.ahead.getLast? = some (c.toList.getLast (List.cons_ne_nil _ _)) := by
    rw [hc]
    exact List.getLast?_eq_some_getLast (List.cons_ne_nil _ _)
  refine Cursor.ended_of_getLast? hlast (h.ended _ ?_)
  rw [ParserState.ahead, List.getLast?_drop] at hlast
  split at hlast
  · cases hlast
  · exact hlast

/-- An expression that a parser is asked for is the one that a selector's parser finds at the tokens
left. -/
theorem nextExpression (h : r.Ready) (power : BindingPower) :
    ∃ outcome c', (StackParser.nextExpression power).exec r = (outcome, r.asked power) ∧
      parseExpression power (Cursor.ofTokens r.now.ahead) = (outcome, c') ∧
      (r.asked power).now.ahead = c'.toList ∧ r.GoesOn (r.asked power) := by
  have hahead : r.now.ahead = (Cursor.ofTokens r.now.ahead).toList := by
    rw [Cursor.toList_ofTokens, h.ended_ahead]
  have hscope : r.now.scope = .root := by rw [ParserState.scope, h.scopes]; rfl
  have htracks : StackParser.Tracks 0 .root (StackParser.nextExpression power)
      (Parser.expression maxDepth .root power) :=
    .expression (Nat.zero_add _) (Nat.lt_succ_self _) .root power
  obtain ⟨outcome, r', c', hx, hy, hahead', hr⟩ := htracks r _ hahead h.depth hscope
  obtain rfl : r.asked power = r' := congrArg Prod.snd hx
  exact ⟨outcome, c', hx, hy, hahead', hr⟩

theorem asked (h : r.Ready) (power : BindingPower) : (r.asked power).Ready := by
  obtain ⟨-, c', -, -, hahead, hr⟩ := h.nextExpression power
  exact {
    scopes := hr.scopes.trans h.scopes
    depth := hr.depth.trans h.depth
    place := ⟨c', hahead⟩
    ended := hr.tokens ▸ h.ended
    orderly := hr.orderly h.orderly }

theorem foldl_asked (h : r.Ready) (powers : List BindingPower) :
    (powers.foldl ParserRun.asked r).Ready := by
  induction powers generalizing r with
  | nil => exact h
  | cons power powers ih => exact ih (h.asked power)

end Ready

end ParserRun

theorem StackParser.exec_selector (tokens : List Token) :
    (StackParser.selector.exec (.start tokens)).1 = parseTokens tokens := by
  have hnested : Nested.TracksAt 0 nextExpression (Parser.expression maxDepth) :=
    fun scope power => .expression (Nat.zero_add _) (Nat.lt_succ_self _) scope power
  have htracks : Tracks 0 .root selector Parser.selector := .map (.within hnested.sequence)
  obtain ⟨outcome, _, _, hx, hy, -⟩ :=
    htracks (.start tokens) (Cursor.ofTokens tokens) (Cursor.toList_ofTokens tokens).symm rfl rfl
  rw [hx]
  exact (congrArg Prod.fst hy).symm

/-- A parser is asked for an expression, after any number of others that it has found or not. Then
all scopes and levels are left. On the way it has gone from state to state in single steps, none of
them deeper than it may be or further back than one before it. What has come of it is what comes of
it with a new parser for the tokens that were left, which then has the same tokens left, and with
the parser of a selector. -/
theorem nextExpression_after (tokens : List Token) (powers : List BindingPower)
    (power : BindingPower) :
    let before := powers.foldl ParserRun.asked (.start tokens)
    let after := before.asked power
    let fresh := ParserRun.start before.now.ahead
    let outcome := ((StackParser.nextExpression power).exec before).1
    (after.now.scopes = [] ∧ after.now.depth = 0) ∧
      before.history <:+ after.history ∧
      after.history.IsChain (fun later earlier => earlier.Step later) ∧
      (∀ s ∈ after.history, s.depth ≤ maxDepth) ∧
      after.history.Pairwise (fun later earlier => earlier.position ≤ later.position) ∧
      outcome = ((StackParser.nextExpression power).exec fresh).1 ∧
      after.now.ahead = (fresh.asked power).now.ahead ∧
      outcome = (parseExpression power (Cursor.ofTokens before.now.ahead)).1 := by
  intro before after fresh outcome
  have hbefore : before.Ready := (ParserRun.Ready.start tokens).foldl_asked powers
  have hafter : after.Ready := hbefore.asked power
  have hfresh : fresh.Ready := .start before.now.ahead
  have hsame : fresh.now.ahead = before.now.ahead := hbefore.ended_ahead
  obtain ⟨found, c', hx, hy, hahead, hr⟩ := hbefore.nextExpression power
  obtain ⟨found', c'', hx', hy', hahead', -⟩ := hfresh.nextExpression power
  -- both do what the parser of a selector does at the same tokens
  rw [hsame, hy] at hy'
  cases hy'
  have houtcome : outcome = found := congrArg Prod.fst hx
  refine ⟨⟨hafter.scopes, hafter.depth⟩, hr.history, hafter.orderly.steps,
    hafter.orderly.shallow, hafter.orderly.forward, ?_, ?_, ?_⟩
  · rw [houtcome, hx']
  · rw [hahead', ← hahead]
  · rw [houtcome, hy]

/-- In `[1 2` the error of the array leaves the 2, which then is an expression. -/
example :
    let tokens : List Token :=
      [⟨.openBracket, "[", 0, 1⟩, ⟨.number, "1", 1, 1⟩, ⟨.number, "2", 3, 1⟩]
    let r := (ParserRun.start tokens).asked .default
    r.now.position = 2 ∧ ((StackParser.nextExpression .default).exec r).1 = .ok (.integer 2) := by
  constructor
  · rfl
  · cbv

end DocSelect
