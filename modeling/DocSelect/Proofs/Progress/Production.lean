import DocSelect.Proofs.Progress.Following

/-!
# The productions without bounds

Each production follows the one with bounds, given a parser of inner expressions that does so and
takes a token. A loop with bounds has at least as many rounds as there are tokens left, and takes
one in every round, so its bound is never what ends it.
-/
namespace DocSelect

open DocSelect.Parser (maxDepth numberLiteral isPlainKey isPropertyWord)

namespace StackParser.Nested

def FollowedAt (depth : Nat) (nested : Nested) : Prop :=
  ∀ power r, UnboundedParser.Follows depth 1 (fun again => again.expression power)
    (nested power) r

end StackParser.Nested

namespace UnboundedParser

open StackParser.Nested (FollowedAt)

variable {depth : Nat} {nested : StackParser.Nested} {close separator : TokenKind} {r : ParserRun}

theorem kind_ne_of_isPlainKey {k : TokenKind} (h : isPlainKey k = true) : k ≠ .eof := by
  rintro rfl
  cases h

theorem kind_ne_of_isPropertyWord {k : TokenKind} (h : isPropertyWord k = true) : k ≠ .eof := by
  rintro rfl
  cases h

theorem descent_follows : Follows depth 0 (fun _ => descent) StackParser.descent r := by
  unfold descent StackParser.descent
  refine .current fun token _ => ?_
  cases token.kind with
  | star | symbol | string | keyword _ => exact .map .advance
  | openBracket =>
    refine .bind .advance fun _ _ _ => .current fun number _ => ?_
    cases numberLiteral number with
    | error e => exact .throw e
    | ok e =>
      cases e with
      | integer i => exact .bind .advance fun _ _ _ => .map (Follows.expect (by decide)).weaken
      | _ => exact .throw _
  | _ => exact .unexpected

theorem direction_follows : Follows depth 0 (fun _ => direction) StackParser.direction r := by
  unfold direction StackParser.direction
  refine .kind fun k _ => ?_
  split
  · refine .bind .advance fun _ _ _ => .kind fun k _ => ?_
    cases k with
    | keyword word =>
      cases word with
      | asc | desc => exact .map .advance
      | _ => exact .unexpected
    | _ => exact .unexpected
  · exact .pure _

section
variable (hn : nested.FollowedAt depth)
include hn

-- ---------------------------------------------------------------------------
-- Lists of expressions
-- ---------------------------------------------------------------------------

theorem sequence_follows (hseparator : separator ≠ .eof) {fuel : Nat}
    (hfuel : r.now.ahead.length ≤ fuel) (filled : Bool) :
    Follows depth 0 (fun again => sequence again close separator filled)
      (StackParser.sequenceLoop nested close separator fuel filled) r := by
  induction fuel generalizing r filled with
  | zero => exact fun hr => absurd hr.length_ahead_pos (by omega)
  | succ fuel ih =>
    unfold sequence StackParser.sequenceLoop
    refine .kind fun k hk => ?_
    split
    · exact .map .advance
    split
    · rename_i hkind
      split
      · exact .weaken (.bind (.take (by rwa [hk, hkind])) fun _ _ hr =>
          .again (ih (hr.rounds hfuel) false))
      · exact .unexpected
    split
    · exact .unexpected
    · exact .weaken (.bind (hn .default r) fun _ _ hr => .map (.again (ih (hr.rounds hfuel) true)))

theorem sequence_rounds_follows (hseparator : separator ≠ .eof) :
    Follows depth 0 (fun again => sequence again close separator false)
      (StackParser.sequence nested close separator) r := by
  unfold StackParser.sequence
  exact .rounds fun fuel hfuel => sequence_follows hn hseparator hfuel false

theorem arguments_follows : Follows depth 1 arguments (StackParser.arguments nested) r := by
  unfold arguments StackParser.arguments
  exact .bind (.expect (by decide)) fun _ _ _ => .within fun _ =>
    sequence_rounds_follows hn (by decide)

theorem statements_follows {scope : Scope} :
    Follows depth 0 (fun again => statements again scope close)
      (StackParser.statements nested scope close) r := by
  unfold statements StackParser.statements
  refine .kind fun k _ => ?_
  split
  · exact .unexpected
  · exact .map (.within fun _ => sequence_rounds_follows hn (by decide))

theorem group_follows : Follows depth 1 group (StackParser.group nested) r := by
  unfold group StackParser.group
  exact .bind (.expect (by decide)) fun _ _ _ => .map (statements_follows hn)

theorem array_follows : Follows depth 1 array (StackParser.array nested) r := by
  unfold array StackParser.array
  refine .bind (.expect (by decide)) fun _ _ _ => .map (.within fun _ => ?_)
  exact sequence_rounds_follows hn (by decide)

theorem body_follows : Follows depth 1 body (StackParser.body nested) r := by
  unfold body StackParser.body
  exact .bind (.expect (by decide)) fun _ _ _ => statements_follows hn

-- ---------------------------------------------------------------------------
-- Objects
-- ---------------------------------------------------------------------------

theorem objectEntry_follows : Follows depth 1 objectEntry (StackParser.objectEntry nested) r := by
  unfold objectEntry StackParser.objectEntry
  refine .current fun token htoken => .nextKind fun next => ?_
  dsimp only
  split
  · rename_i h
    exact .map (.take (by rw [htoken, h.1]; decide))
  split
  · rename_i h
    exact .map (.take (by rw [htoken, h.1]; decide))
  split
  · rename_i h
    refine .bind (.take (htoken ▸ kind_ne_of_isPlainKey h.1)) fun _ _ _ =>
      .bind .advance fun _ _ _ => ?_
    exact .weaken (.map (hn .default _))
  · refine .bind (hn .default r) fun key _ _ => ?_
    split
    · exact .pure _
    split
    · exact .pure _
    · exact .weaken (.bind (.expect (by decide)) fun _ _ _ => .weaken (.map (hn .default _)))

theorem entries_follows {fuel : Nat} (hfuel : r.now.ahead.length ≤ fuel) :
    Follows depth 0 entries (StackParser.objectLoop nested fuel) r := by
  induction fuel generalizing r with
  | zero => exact fun hr => absurd hr.length_ahead_pos (by omega)
  | succ fuel ih =>
    unfold entries StackParser.objectLoop
    refine .kind fun k _ => ?_
    split
    · exact .map .advance
    · refine .weaken (.bind (objectEntry_follows hn) fun entry r₁ hr₁ => .kind fun k _ => ?_)
      dsimp only
      split
      · exact .bind .advance fun _ _ hr₂ => .map (.again (ih ((hr₁.trans hr₂).rounds hfuel)))
      split
      · exact .bind .unexpected fun _ _ hr₂ =>
          .map (.again (ih ((hr₁.trans hr₂).rounds hfuel)))
      · exact .map (.again (ih (hr₁.rounds hfuel)))

theorem object_follows : Follows depth 1 object (StackParser.object nested) r := by
  unfold object StackParser.object
  refine .bind (.expect (by decide)) fun _ _ _ => .within fun _ => .rounds fun fuel hfuel => ?_
  exact .map (entries_follows hn hfuel)

-- ---------------------------------------------------------------------------
-- Steps of a chain
-- ---------------------------------------------------------------------------

theorem bound_follows {absentBefore : TokenKind} :
    Follows depth 0 (fun again => bound again absentBefore)
      (StackParser.bound nested absentBefore) r := by
  unfold bound StackParser.bound
  refine .kind fun k _ => ?_
  split
  · exact .pure none
  · exact .weaken (.map (hn .default r))

theorem subscript_follows : Follows depth 0 subscript (StackParser.subscript nested) r := by
  unfold subscript StackParser.subscript
  refine .bind (bound_follows hn) fun start r₁ _ => .kind fun k _ => ?_
  have hrange (start : Option Expr) : Follows depth 0
      (fun again => do
        expect .colon
        let stop ← bound again .closeBracket
        expect .closeBracket
        return .range start stop)
      (do
        StackParser.expect .colon
        let stop ← StackParser.bound nested .closeBracket
        StackParser.expect .closeBracket
        return Expr.range start stop) r₁ := by
    refine .weaken (.bind (.expect (by decide)) fun _ _ _ =>
      .bind (bound_follows hn) fun stop _ _ => ?_)
    exact .weaken (.map (.expect (by decide)))
  cases start with
  | none => exact hrange none
  | some key =>
    cases k with
    | closeBracket => exact .map .advance
    | _ => exact hrange (some key)

theorem brackets_follows : Follows depth 1 brackets (StackParser.brackets nested) r := by
  unfold brackets StackParser.brackets
  refine .bind (.expect (by decide)) fun _ _ _ => .kind fun k _ => .nextKind fun next => ?_
  split
  · exact .bind .advance fun _ _ _ => .map .advance
  · exact .within fun _ => subscript_follows hn

theorem conditional_follows {fuel : Nat} (hfuel : r.now.ahead.length ≤ fuel) :
    Follows depth 1 conditional (StackParser.conditional nested fuel) r := by
  induction fuel generalizing r with
  | zero => exact fun hr => absurd hr.length_ahead_pos (by omega)
  | succ fuel ih =>
    unfold conditional StackParser.conditional
    refine .before .advance fun _ r₁ hr₁ => .bind (.expect (by decide)) fun _ r₂ hr₂ => ?_
    refine .bind (statements_follows hn) fun condition r₃ hr₃ => ?_
    refine .bind (.weaken (body_follows hn)) fun consequence r₄ hr₄ => .kind fun k _ => ?_
    have hrest : r.now.Reaches 1 r₄.now := ((hr₁.trans hr₂).trans hr₃).trans hr₄
    cases k with
    | keyword word =>
      cases word with
      | elseIf => exact .weaken (.map (.again (ih (hrest.rounds hfuel))))
      | elseThen => exact .bind .advance fun _ _ _ => .weaken (.map (body_follows hn))
      | _ => exact .pure _
    | _ => exact .pure _

theorem collection_follows (word : Keyword) :
    Follows depth 1 (fun again => collection again word)
      (StackParser.collection nested word) r := by
  unfold collection StackParser.collection
  refine .current fun token _ => .before .advance fun _ _ _ =>
    .bind (arguments_follows hn) fun steps _ _ => ?_
  cases steps with
  | nil => exact .throw _
  | cons step steps => exact .pure _

theorem ordering_follows : Follows depth 1 ordering (StackParser.ordering nested) r := by
  unfold ordering StackParser.ordering
  refine .bind (hn .default r) fun key _ _ => .bind direction_follows fun direction _ _ => ?_
  exact .weaken (.map (.expect (by decide)))

theorem sortBy_follows : Follows depth 1 sortBy (StackParser.sortBy nested) r := by
  unfold sortBy StackParser.sortBy
  refine .before .advance fun _ _ _ => .bind (.expect (by decide)) fun _ _ _ => ?_
  exact .within fun _ => .weaken (ordering_follows hn)

theorem construct_follows (word : Keyword) :
    Follows depth 1 (fun again => construct again word) (StackParser.construct nested word) r := by
  unfold construct StackParser.construct
  cases word with
  | ifThen => exact .rounds fun fuel hfuel => conditional_follows hn hfuel
  | branch => exact .before .advance fun _ _ _ => .map (arguments_follows hn)
  | map => exact .map (collection_follows hn .map)
  | filter => exact .map (collection_follows hn .filter)
  | each => exact .map (collection_follows hn .each)
  | search => exact .map (collection_follows hn .search)
  | sortBy => exact sortBy_follows hn
  | elseIf | elseThen | asc | desc => exact .unexpected

theorem primary_follows : Follows depth 1 primary (StackParser.primary nested) r := by
  unfold primary StackParser.primary
  refine .current fun token htoken => .nextKind fun next => ?_
  split
  · rename_i h
    exact .map (.take (htoken ▸ kind_ne_of_isPropertyWord h.1))
  have htake {k : TokenKind} (hk : token.kind = k) (hne : k ≠ .eof) :
      (r.now.peek 0).kind ≠ .eof := by
    rwa [htoken, hk]
  cases hk : token.kind with
  | string | bool | null | regex | var | ellipsis => exact .map (.take (htake hk (by decide)))
  | number =>
    refine .bind (.take (htake hk (by decide))) fun _ _ _ => ?_
    cases numberLiteral token with
    | ok e => exact .pure e
    | error e => exact .throw e
  | symbol =>
    refine .bind (.take (htake hk (by decide))) fun _ _ _ => .kind fun k _ => ?_
    split
    · exact .weaken (.map (arguments_follows hn))
    · exact .pure _
  | descent => exact .bind (.take (htake hk (by decide))) fun _ _ _ => descent_follows
  | openParen => exact group_follows hn
  | openBracket => exact array_follows hn
  | openBrace => exact object_follows hn
  | keyword word => exact construct_follows hn word
  | _ => exact .unexpected

theorem furtherSteps_follows {fuel : Nat} (hfuel : r.now.ahead.length ≤ fuel) :
    Follows depth 0 furtherSteps (StackParser.furtherSteps nested fuel) r := by
  induction fuel generalizing r with
  | zero => exact fun hr => absurd hr.length_ahead_pos (by omega)
  | succ fuel ih =>
    unfold furtherSteps StackParser.furtherSteps
    refine .kind fun k hk => ?_
    cases k with
    | dot =>
      refine .bind .advance fun _ _ hr₁ =>
        .weaken (.bind (primary_follows hn) fun step _ hr₂ => ?_)
      exact .map (.again (ih ((hr₁.trans hr₂).rounds hfuel)))
    | descent =>
      refine .weaken (.bind (.take (by rw [hk]; decide)) fun _ _ hr₁ =>
        .bind descent_follows fun step _ hr₂ => ?_)
      exact .map (.again (ih ((hr₁.trans hr₂).rounds hfuel)))
    | openBracket =>
      exact .weaken (.bind (brackets_follows hn) fun step _ hr =>
        .map (.again (ih (hr.rounds hfuel))))
    | ellipsis =>
      exact .weaken (.bind (.take (by rw [hk]; decide)) fun _ _ hr =>
        .map (.again (ih (hr.rounds hfuel))))
    | _ => exact .pure []

theorem chain_follows : Follows depth 1 chain (StackParser.chain nested) r := by
  unfold chain StackParser.chain
  refine .bind (primary_follows hn) fun first _ _ => .rounds fun fuel hfuel => ?_
  exact .map (furtherSteps_follows hn hfuel)

-- ---------------------------------------------------------------------------
-- Operators
-- ---------------------------------------------------------------------------

theorem operand_follows : Follows depth 1 operand (StackParser.operand nested) r := by
  unfold operand StackParser.operand
  refine .kind fun k _ => ?_
  cases k with
  | not => exact .before .advance fun _ _ _ => .map (hn .unary _)
  | minus => exact .before .advance fun _ _ _ => .map (chain_follows hn)
  | _ => exact chain_follows hn

theorem fold_follows (left : Expr) (power : BindingPower) :
    Follows depth 1 (fun again => fold again left power)
      (StackParser.fold nested left power) r := by
  unfold fold StackParser.fold
  refine .current fun token _ => .before .advance fun _ _ _ => ?_
  cases token.kind with
  | assign | incrementBy | decrementBy => exact .map (hn .default _)
  | _ => first | exact .map (hn power _) | exact .throw _

theorem folds_follows (power : BindingPower) {fuel count : Nat}
    (hcount : depth + count ≤ maxDepth) (hfuel : maxDepth < depth + count + fuel) (left : Expr) :
    Follows depth 0 (fun again => folds again power count left)
      (StackParser.folds nested power fuel count left) r := by
  induction fuel generalizing r count left with
  | zero => exact absurd hcount (by omega)
  | succ fuel ih =>
    unfold folds StackParser.folds
    refine .kind fun k _ => ?_
    cases BindingPower.ofToken? k with
    | none => exact .pure left
    | some p =>
      dsimp only
      split
      · refine .state fun s hdepth => ?_
        split
        · exact .tooDeep
        · rename_i hlevel
          refine .weaken (.bind (fold_follows hn left p) fun left _ _ => ?_)
          exact .again (ih (by omega) (by omega) left)
      · exact .pure left

end

theorem expression_follows {fuel : Nat} (hfuel : maxDepth - depth < fuel) (power : BindingPower)
    (r : ParserRun) :
    Follows depth 1 (fun again => expression again power)
      (StackParser.expression fuel power) r := by
  induction fuel generalizing depth power r with
  | zero => exact absurd hfuel (Nat.not_lt_zero _)
  | succ fuel ih =>
    unfold expression StackParser.expression
    by_cases hlt : depth < maxDepth
    · have hn : (StackParser.expression fuel).FollowedAt (depth + 1) :=
        fun power r => .again (ih (by omega) power r)
      refine .deeper hlt fun _ => .bind (operand_follows hn) fun left _ _ => ?_
      refine .bind (folds_follows hn power hlt (by omega) left) fun whole _ _ => ?_
      exact .bind .expectEnd fun _ _ _ => .pure whole
    · exact .deepest (Nat.not_lt.1 hlt)

end UnboundedParser

end DocSelect
