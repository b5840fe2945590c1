import DocSelect.Proofs.Progress.Production
import DocSelect.Proofs.Stack

/-!
# Every parse has an answer

From every place among any tokens the parser without bounds has an answer: each loop ends, and no
token is looked for outside of the tokens. What makes them end is that an expression, a primary and
an entry of an object take a token whenever they succeed.
-/
namespace DocSelect

variable {tokens : List Token} {r : ParserRun}

theorem Cursor.length_ended_pos (tokens : List Token) : 0 < (ended tokens).length := by
  rw [← toList_ofTokens]
  exact Nat.succ_pos _

theorem ParserState.placed_ended (place : Fin (Cursor.ended tokens).length) (scopes : List Scope)
    (depth : Nat) :
    Placed ⟨Cursor.ended tokens, place, scopes, depth⟩ where
  inside := place.isLt
  ended := by
    have hended := Cursor.ended_ofTokens tokens
    rwa [Cursor.Ended, Cursor.toList_ofTokens] at hended

theorem ParserState.placed_fromTokens (tokens : List Token) : (fromTokens tokens).Placed :=
  placed_ended ⟨0, Cursor.length_ended_pos tokens⟩ [] 0

namespace UnboundedParser

/-- The parser has an answer. It is still at a place among the same tokens and as deep as it was,
and after a success it is at least `n` tokens further on. -/
def Answers {α : Type} (n : Nat) (x : Repeated → UnboundedParser α) (r : ParserRun) : Prop :=
  ∃ outcome r', Gives x r (outcome, r') ∧ r.now.Reaches 0 r'.now ∧ ∀ a, outcome = .ok a →
    r.now.Reaches n r'.now

section

variable {α : Type} {depth n : Nat} {x : Repeated → UnboundedParser α} {y : StackParser α}

theorem Follows.gives (h : Follows depth n x y r) (hr : r.now.Placed)
    (hdepth : r.now.depth = depth) : Gives x r (y.exec r) := by
  obtain ⟨outcome, r', hx, hy, -⟩ := h hr hdepth
  rwa [hy]

theorem Follows.answers (h : Follows depth n x y r) (hr : r.now.Placed)
    (hdepth : r.now.depth = depth) : Answers n x r := by
  obtain ⟨outcome, r', hx, -, hreach, hfurther⟩ := h hr hdepth
  exact ⟨outcome, r', hx, hreach, fun a ha => { hreach with further := hfurther a ha }⟩

end

theorem nextExpression_follows (depth : Nat) (power : BindingPower) (r : ParserRun) :
    Follows depth 1 (fun again => expression again power) (StackParser.nextExpression power) r :=
  expression_follows (Nat.lt_succ_of_le (Nat.sub_le _ _)) power r

theorem nextExpression_followed (depth : Nat) :
    StackParser.Nested.FollowedAt depth StackParser.nextExpression :=
  fun power r => .again (nextExpression_follows depth power r)

theorem selector_follows : Follows r.now.depth 0 selector StackParser.selector r :=
  .map (.within fun _ => sequence_rounds_follows (nextExpression_followed _) (by decide))

end UnboundedParser

open UnboundedParser

/-- Whatever the tokens are, a selector and an expression of any power have an answer, which is the
one that the parsers with bounds give. So it is from every place among the tokens, in all scopes and
at every depth, and there a success with an expression, a primary or an entry of an object is
further on. -/
theorem parser_answers (tokens : List Token) :
    (∃ r, Gives selector (.start tokens) (parseTokens tokens, r)) ∧
    (∀ power, ∃ r, Gives (fun again => expression again power) (.start tokens)
      ((parseExpression power (Cursor.ofTokens tokens)).1, r)) ∧
    ∀ (place : Fin (Cursor.ended tokens).length) (scopes : List Scope) (depth : Nat)
      (earlier : List ParserState),
      let r : ParserRun := ⟨⟨Cursor.ended tokens, place, scopes, depth⟩, earlier⟩
      Answers 0 selector r ∧ (∀ power, Answers 1 (fun again => expression again power) r) ∧
        Answers 1 primary r ∧ Answers 1 objectEntry r := by
  have hstart : (ParserRun.start tokens).now.Placed := ParserState.placed_fromTokens tokens
  refine ⟨?_, fun power => ?_, fun place scopes depth earlier => ?_⟩
  · have hgives := selector_follows.gives hstart rfl
    refine ⟨(StackParser.selector.exec (.start tokens)).2, ?_⟩
    rwa [← StackParser.exec_selector]
  · have hgives := (nextExpression_follows 0 power (.start tokens)).gives hstart rfl
    have hready := ParserRun.Ready.start tokens
    have hahead : (ParserRun.start tokens).now.ahead = Cursor.ended tokens := rfl
    obtain ⟨outcome, c', hx, hy, -⟩ := hready.nextExpression power
    have hsame : Cursor.ofTokens (Cursor.ended tokens) = Cursor.ofTokens tokens := by
      unfold Cursor.ofTokens
      rw [← hahead, hready.ended_ahead, hahead]
    rw [hahead, hsame] at hy
    rw [hx] at hgives
    rw [hy]
    exact ⟨_, hgives⟩
  · intro r
    have hr : r.now.Placed := ParserState.placed_ended place scopes depth
    have hn := nextExpression_followed depth
    exact ⟨selector_follows.answers hr rfl,
      fun power => (nextExpression_follows depth power r).answers hr rfl,
      (primary_follows hn).answers hr rfl, (objectEntry_follows hn).answers hr rfl⟩

/-- Tokens behind the end of the input are not looked at. -/
example : parseTokens [⟨.number, "1", 0, 1⟩, .atEnd 1, ⟨.number, "2", 2, 1⟩] =
    .ok (.integer 1) := by cbv

end DocSelect
