import DocSelect.Proofs.Stack.Tracking

/-!
# The productions with a stack

Each production tracks the one that is told its scope, given parsers of inner expressions that do so
in every scope. A production that opens a scope is left with the scope that was around it.
-/
namespace DocSelect

open DocSelect.Parser (maxDepth numberLiteral)

namespace StackParser.Nested

def TracksAt (depth : Nat) (nested : Nested) (nested₀ : Parser.Nested) : Prop :=
  ∀ scope power, Tracks depth scope (nested power) (nested₀ scope power)

namespace TracksAt

variable {depth : Nat} {scope : Scope} {nested : Nested} {nested₀ : Parser.Nested}
  {close separator : TokenKind}

section
variable (hn : TracksAt depth nested nested₀)
include hn

-- ---------------------------------------------------------------------------
-- Lists of expressions
-- ---------------------------------------------------------------------------

theorem sequenceLoop (fuel : Nat) (filled : Bool) :
    Tracks depth scope (sequenceLoop nested close separator fuel filled)
      (Parser.sequenceLoop nested₀ scope close separator fuel filled) := by
  induction fuel generalizing filled with
  | zero => exact .unexpected
  | succ fuel ih =>
    unfold StackParser.sequenceLoop Parser.sequenceLoop
    refine .bind .kind fun k => ?_
    split
    · exact .map .advance
    split
    · split
      · exact .bind .advance fun _ => ih false
      · exact .unexpected
    split
    · exact .unexpected
    · exact .bind (hn scope .default) fun e => .map (ih true)

theorem sequence :
    Tracks depth scope (sequence nested close separator)
      (Parser.sequence nested₀ scope close separator) := by
  unfold StackParser.sequence Parser.sequence
  exact .bind .rounds fun fuel => hn.sequenceLoop fuel false

theorem arguments : Tracks depth scope (arguments nested) (Parser.arguments nested₀) := by
  unfold StackParser.arguments Parser.arguments
  exact .bind .expect fun _ => .within hn.sequence

theorem statements {inner : Scope} :
    Tracks depth scope (statements nested inner close)
      (Parser.statements nested₀ inner close) := by
  unfold StackParser.statements Parser.statements
  refine .bind .kind fun k => ?_
  split
  · exact .unexpected
  · exact .map (.within hn.sequence)

theorem group : Tracks depth scope (group nested) (Parser.group nested₀) := by
  unfold StackParser.group Parser.group
  exact .bind .expect fun _ => .map hn.statements

theorem array : Tracks depth scope (array nested) (Parser.array nested₀) := by
  unfold StackParser.array Parser.array
  exact .bind .expect fun _ => .map (.within hn.sequence)

theorem body : Tracks depth scope (body nested) (Parser.body nested₀) := by
  unfold StackParser.body Parser.body
  exact .bind .expect fun _ => hn.statements

-- ---------------------------------------------------------------------------
-- Objects
-- ---------------------------------------------------------------------------

theorem objectEntry : Tracks depth .object (objectEntry nested) (Parser.objectEntry nested₀) := by
  unfold StackParser.objectEntry Parser.objectEntry
  refine .bind .current fun token => .bind .nextKind fun next => ?_
  dsimp only
  split
  · exact .map .advance
  split
  · exact .map .advance
  split
  · refine .bind .advance fun _ => .bind .advance fun _ => ?_
    exact .map (hn .object .default)
  · refine .bind (hn .object .default) fun key => ?_
    split
    · exact .pure _
    split
    · exact .pure _
    · exact .bind .expect fun _ => .map (hn .object .default)

theorem objectLoop (fuel : Nat) :
    Tracks depth .object (objectLoop nested fuel) (Parser.objectLoop nested₀ fuel) := by
  induction fuel with
  | zero => exact .unexpected
  | succ fuel ih =>
    unfold StackParser.objectLoop Parser.objectLoop
    refine .bind .kind fun k => ?_
    split
    · exact .map .advance
    · refine .bind hn.objectEntry fun entry => .bind .kind fun k => ?_
      have hrest := ih.map (f := (entry :: ·))
      dsimp only
      split
      · exact .bind .advance fun _ => hrest
      split
      · exact .bind .unexpected fun _ => hrest
      · exact hrest

theorem object : Tracks depth scope (object nested) (Parser.object nested₀) := by
  unfold StackParser.object Parser.object
  exact .bind .expect fun _ => .within (.bind .rounds fun fuel => .map (hn.objectLoop fuel))

-- ---------------------------------------------------------------------------
-- Steps of a chain
-- ---------------------------------------------------------------------------

theorem rangeBound {absentBefore : TokenKind} :
    Tracks depth .brackets (bound nested absentBefore) (Parser.bound nested₀ absentBefore) := by
  unfold StackParser.bound Parser.bound
  refine .bind .kind fun k => ?_
  split
  · exact .pure none
  · exact .map (hn .brackets .default)

theorem brackets : Tracks depth scope (brackets nested) (Parser.brackets nested₀) := by
  unfold StackParser.brackets StackParser.subscript Parser.brackets
  refine .bind .expect fun _ => .bind .kind fun k => .bind .nextKind fun next => ?_
  split
  · exact .bind .advance fun _ => .map .advance
  · refine .within (.bind hn.rangeBound fun start => .bind .kind fun k => ?_)
    have hrange (start : Option Expr) : Tracks depth .brackets
        (do
          StackParser.expect .colon
          let stop ← StackParser.bound nested .closeBracket
          StackParser.expect .closeBracket
          return .range start stop)
        (do
          Parser.expect .colon
          let stop ← Parser.bound nested₀ .closeBracket
          Parser.expect .closeBracket
          return Expr.range start stop) :=
      .bind .expect fun _ => .bind hn.rangeBound fun stop => .map .expect
    cases start with
    | none => exact hrange none
    | some key =>
      cases k with
      | closeBracket => exact .map .advance
      | _ => exact hrange (some key)

omit hn in
theorem descent : Tracks depth scope descent Parser.descent := by
  unfold StackParser.descent Parser.descent
  refine .bind .current fun token => ?_
  cases token.kind with
  | star | symbol | string | keyword _ => exact .map .advance
  | openBracket =>
    refine .bind .advance fun _ => .bind .current fun number => ?_
    cases numberLiteral number with
    | error e => exact .throw e
    | ok e =>
      cases e with
      | integer i => exact .bind .advance fun _ => .map .expect
      | _ => exact .throw _
  | _ => exact .unexpected

theorem conditional (fuel : Nat) :
    Tracks depth scope (conditional nested fuel) (Parser.conditional nested₀ fuel) := by
  induction fuel with
  | zero => exact .unexpected
  | succ fuel ih =>
    unfold StackParser.conditional Parser.conditional
    refine .bind .advance fun _ => .bind .expect fun _ => .bind hn.statements fun condition => ?_
    refine .bind hn.body fun consequence => .bind .kind fun k => ?_
    cases k with
    | keyword word =>
      cases word with
      | elseIf => exact .map ih
      | elseThen => exact .bind .advance fun _ => .map hn.body
      | _ => exact .pure _
    | _ => exact .pure _

theorem collection (word : Keyword) :
    Tracks depth scope (collection nested word) (Parser.collection nested₀ word) := by
  unfold StackParser.collection Parser.collection
  refine .bind .current fun token => .bind .advance fun _ => .bind hn.arguments fun steps => ?_
  cases steps with
  | nil => exact .throw _
  | cons step steps => exact .pure _

omit hn in
theorem direction : Tracks depth scope direction Parser.direction := by
  unfold StackParser.direction Parser.direction
  refine .bind .kind fun k => ?_
  split
  · refine .bind .advance fun _ => .bind .kind fun k => ?_
    cases k with
    | keyword word =>
      cases word with
      | asc | desc => exact .map .advance
      | _ => exact .unexpected
    | _ => exact .unexpected
  · exact .pure _

theorem sortBy : Tracks depth scope (sortBy nested) (Parser.sortBy nested₀) := by
  unfold StackParser.sortBy StackParser.ordering Parser.sortBy
  refine .bind .advance fun _ => .bind .expect fun _ => .within ?_
  exact .bind (hn .arguments .default) fun key => .bind direction fun direction => .map .expect

theorem construct (word : Keyword) :
    Tracks depth scope (construct nested word) (Parser.construct nested₀ word) := by
  cases word with
  | ifThen => exact .bind .rounds fun fuel => hn.conditional fuel
  | branch => exact .bind .advance fun _ => .map hn.arguments
  | map => exact .map (hn.collection .map)
  | filter => exact .map (hn.collection .filter)
  | each => exact .map (hn.collection .each)
  | search => exact .map (hn.collection .search)
  | sortBy => exact hn.sortBy
  | elseIf | elseThen | asc | desc => exact .unexpected

theorem primary : Tracks depth scope (primary nested) (Parser.primary nested₀) := by
  unfold StackParser.primary Parser.primary
  refine .bind .current fun token => .bind .nextKind fun next => ?_
  split
  · exact .map .advance
  cases token.kind with
  | string | bool | null | regex | var | ellipsis => exact .map .advance
  | number =>
    refine .bind .advance fun _ => ?_
    cases numberLiteral token with
    | ok e => exact .pure e
    | error e => exact .throw e
  | symbol =>
    refine .bind .advance fun _ => .bind .kind fun k => ?_
    split
    · exact .map hn.arguments
    · exact .pure _
  | descent => exact .bind .advance fun _ => descent
  | openParen => exact hn.group
  | openBracket => exact hn.array
  | openBrace => exact hn.object
  | keyword word => exact hn.construct word
  | _ => exact .unexpected

theorem furtherSteps (fuel : Nat) :
    Tracks depth scope (furtherSteps nested fuel) (Parser.furtherSteps nested₀ fuel) := by
  induction fuel with
  | zero => exact .pure []
  | succ fuel ih =>
    unfold StackParser.furtherSteps Parser.furtherSteps
    refine .bind .kind fun k => ?_
    cases k with
    | dot => exact .bind .advance fun _ => .bind hn.primary fun step => .map ih
    | descent => exact .bind .advance fun _ => .bind descent fun step => .map ih
    | openBracket => exact .bind hn.brackets fun step => .map ih
    | ellipsis => exact .bind .advance fun _ => .map ih
    | _ => exact .pure []

theorem chain : Tracks depth scope (chain nested) (Parser.chain nested₀) := by
  unfold StackParser.chain Parser.chain
  exact .bind hn.primary fun first => .bind .rounds fun fuel => .map (hn.furtherSteps fuel)

-- ---------------------------------------------------------------------------
-- Operators
-- ---------------------------------------------------------------------------

theorem operand : Tracks depth scope (operand nested) (Parser.operand nested₀ scope) := by
  unfold StackParser.operand Parser.operand
  refine .bind .kind fun k => ?_
  cases k with
  | not => exact .bind .advance fun _ => .map (hn scope .unary)
  | minus => exact .bind .advance fun _ => .map hn.chain
  | _ => exact hn.chain

theorem fold (left : Expr) (power : BindingPower) :
    Tracks depth scope (fold nested left power) (Parser.fold nested₀ scope left power) := by
  unfold StackParser.fold Parser.fold
  refine .bind .current fun token => .bind .advance fun _ => ?_
  cases token.kind with
  | assign | incrementBy | decrementBy => exact .map (hn scope .default)
  | _ => first | exact .map (hn scope power) | exact .throw _

/-- The levels that are left are those that the depth and the infix tokens taken so far leave. -/
theorem folds (power : BindingPower) {fuel levels count : Nat}
    (hlevels : depth + count + levels = maxDepth) (hfuel : levels < fuel) (left : Expr) :
    Tracks depth scope (folds nested power fuel count left)
      (Parser.folds nested₀ scope power levels left) := by
  induction fuel generalizing levels count left with
  | zero => exact absurd hfuel (Nat.not_lt_zero _)
  | succ fuel ih =>
    unfold StackParser.folds Parser.folds
    refine .bind .kind fun k => ?_
    cases BindingPower.ofToken? k with
    | none => exact .pure left
    | some p =>
      dsimp only
      split
      · refine .state fun s hdepth _ => ?_
        rw [hdepth]
        cases levels with
        | zero =>
          rw [if_pos (by omega)]
          exact .tooDeep
        | succ levels =>
          rw [if_neg (by omega)]
          exact .bind (hn.fold left p) fun left => ih (by omega) (by omega) left
      · exact .pure left

end

end TracksAt

end StackParser.Nested

namespace StackParser

/-- An expression at a depth tracks one that is told how many levels there are from this depth
on. -/
theorem Tracks.expression {depth fuel levels : Nat} (hlevels : depth + levels = maxDepth)
    (hfuel : levels < fuel) (scope : Scope) (power : BindingPower) :
    Tracks depth scope (expression fuel power) (Parser.expression levels scope power) := by
  induction fuel generalizing depth levels scope power with
  | zero => exact absurd hfuel (Nat.not_lt_zero _)
  | succ fuel ih =>
    unfold StackParser.expression
    cases levels with
    | zero => exact .deepest (by omega)
    | succ levels =>
      have hn :
          Nested.TracksAt (depth + 1) (StackParser.expression fuel) (Parser.expression levels) :=
        fun scope power => ih (by omega) (by omega) scope power
      unfold Parser.expression
      refine .deeper (by omega) (.bind hn.operand fun left => ?_)
      refine .bind (hn.folds power (by omega) (by omega) left) fun whole => ?_
      exact .bind .expectEnd fun _ => .pure whole

end StackParser

end DocSelect
