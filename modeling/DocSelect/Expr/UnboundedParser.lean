import DocSelect.Expr.StackParser

/-!
# Parsing without bounds

The productions of the parser with a stack, with no number of rounds for a loop: only the depth is
counted, which the parser looks at by itself. The productions that are called again, for the next
round of a loop or for an inner expression, are a parameter; `Repeated.upTo n` are those where such
calls are nested up to `n` times. A deeper call has no answer, and neither has a look at a token
where there is none. What a parser gives is the answer that it has from some number on: its run
comes to an end by itself.
-/
namespace DocSelect

/-- The token so many places ahead, or the last one, if that is a place among the tokens. -/
def ParserState.peek? (s : ParserState) (offset : Nat) : Option Token :=
  s.tokens[min (s.position + offset) (s.tokens.length - 1)]?

/-- A parser that may have no answer. -/
abbrev UnboundedParser := ExceptT ParseError (StateT ParserRun Option)

namespace UnboundedParser

open DocSelect.Parser

variable {α : Type}

def state : UnboundedParser ParserState := return (← get).now

def update (f : ParserState → ParserState) : UnboundedParser Unit := modify (.update f)

def look (offset : Nat) : UnboundedParser Token :=
  ExceptT.mk fun r => (r.now.peek? offset).map fun token => (.ok token, r)

def current : UnboundedParser Token := look 0

def kind : UnboundedParser TokenKind := return (← current).kind

def nextKind : UnboundedParser TokenKind := return (← look 1).kind

def advance : UnboundedParser Unit := update .advanced

def unexpected : UnboundedParser α := do throw (.unexpected (← current))

def tooDeep : UnboundedParser α := do throw (.tooDeep maxDepth (← current).position)

def expect (k : TokenKind) : UnboundedParser Unit := do
  if (← kind) = k then advance else unexpected

def expectEnd : UnboundedParser Unit := do
  let k ← kind
  if k ∈ (← state).scope.terminators ∨ (BindingPower.ofToken? k).isSome then return ()
  else unexpected

/-- What is done in the end, also after a failure. -/
def finish (x : UnboundedParser α) (f : ParserState → ParserState) : UnboundedParser α :=
  (do
    let outcome ← x.run
    modify (.update f)
    return outcome : StateT ParserRun Option (Except ParseError α))

def within (scope : Scope) (x : UnboundedParser α) : UnboundedParser α := do
  update (.pushed scope)
  finish x .popped

def deeper (x : UnboundedParser α) : UnboundedParser α := do
  if maxDepth ≤ (← state).depth then tooDeep
  else
    update .entered
    finish x .left

def descent : UnboundedParser Expr := do
  let token ← current
  match token.kind with
  | .star =>
    advance
    return .descend .scalars
  | .symbol | .string | .keyword _ =>
    advance
    return .descend (.key token.value)
  | .openBracket =>
    advance
    let number ← current
    match numberLiteral number with
    | .ok (.integer i) =>
      advance
      expect .closeBracket
      return .descend (.index i)
    | .ok _ => throw (.unexpected number)
    | .error e => throw e
  | _ => unexpected

def direction : UnboundedParser SortDirection := do
  if (← kind) = .comma then
    advance
    match (← kind) with
    | .keyword .asc =>
      advance
      return .ascending
    | .keyword .desc =>
      advance
      return .descending
    | _ => unexpected
  else return .ascending

/-- The productions that are called again: the next round of a loop, the next of some conditions in
a row, and an inner expression. -/
structure Repeated where
  sequence : (close separator : TokenKind) → (filled : Bool) → UnboundedParser (List Expr)
  entries : UnboundedParser (List ObjectEntry)
  conditional : UnboundedParser Expr
  furtherSteps : UnboundedParser (List Expr)
  folds : BindingPower → (count : Nat) → Expr → UnboundedParser Expr
  expression : BindingPower → UnboundedParser Expr

variable (again : Repeated)

/-! ## Lists of expressions -/

def sequence (close separator : TokenKind) (filled : Bool) : UnboundedParser (List Expr) := do
  let k ← kind
  if k = close then
    advance
    return []
  else if k = separator then
    if filled then
      advance
      again.sequence close separator false
    else unexpected
  else if k = .eof then unexpected
  else
    let e ← again.expression .default
    let es ← again.sequence close separator true
    return e :: es

def arguments : UnboundedParser (List Expr) := do
  expect .openParen
  within .arguments (sequence again .closeParen .comma false)

def statements (scope : Scope) (close : TokenKind) : UnboundedParser Expr := do
  if (← kind) = close then unexpected
  else return Expr.chained (← within scope (sequence again close .semicolon false))

def group : UnboundedParser Expr := do
  expect .openParen
  return .group (← statements again .group .closeParen)

def array : UnboundedParser Expr := do
  expect .openBracket
  return .array (← within .array (sequence again .closeBracket .comma false))

def body : UnboundedParser Expr := do
  expect .openBrace
  statements again .body .closeBrace

/-! ## Objects -/

def objectEntry : UnboundedParser ObjectEntry := do
  let token ← current
  let next ← nextKind
  let alone := next == .comma || next == .closeBrace
  if token.kind = .ellipsis ∧ alone then
    advance
    return .spread none
  else if token.kind = .symbol ∧ alone then
    advance
    return .pair (.string token.value) (.property token.value)
  else if isPlainKey token.kind ∧ next = .colon then
    advance
    advance
    return .pair (.string token.value) (← again.expression .default)
  else
    let key ← again.expression .default
    if key.isSpread then return .spread none
    else if key.last.isSpread then return .spread key.dropLast?
    else
      expect .colon
      return .pair key (← again.expression .default)

def entries : UnboundedParser (List ObjectEntry) := do
  if (← kind) = .closeBrace then
    advance
    return []
  else
    let entry ← objectEntry again
    let k ← kind
    if k = .comma then advance
    else if k ≠ .closeBrace then unexpected
    return entry :: (← again.entries)

def object : UnboundedParser Expr := do
  expect .openBrace
  within .object do return .object (← entries again)

/-! ## Steps of a chain -/

def bound (absentBefore : TokenKind) : UnboundedParser (Option Expr) := do
  if (← kind) = absentBefore then return none
  else return some (← again.expression .default)

def subscript : UnboundedParser Expr := do
  match (← bound again .colon), (← kind) with
  | some key, .closeBracket =>
    advance
    return .index key
  | start, _ =>
    expect .colon
    let stop ← bound again .closeBracket
    expect .closeBracket
    return .range start stop

def brackets : UnboundedParser Expr := do
  expect .openBracket
  if (← kind) = .ellipsis ∧ (← nextKind) = .closeBracket then
    advance
    advance
    return .spread
  else within .brackets (subscript again)

def conditional : UnboundedParser Expr := do
  advance
  expect .openParen
  let condition ← statements again .group .closeParen
  let consequence ← body again
  match (← kind) with
  | .keyword .elseIf =>
    return .conditional condition consequence (some (← again.conditional))
  | .keyword .elseThen =>
    advance
    return .conditional condition consequence (some (← body again))
  | _ => return .conditional condition consequence none

def collection (construct : Keyword) : UnboundedParser Expr := do
  let position := (← current).position
  advance
  match (← arguments again) with
  | [] => throw (.missingExpression construct position)
  | steps => return Expr.chained steps

def ordering : UnboundedParser Expr := do
  let key ← again.expression .default
  let direction ← direction
  expect .closeParen
  return .sortBy key direction

def sortBy : UnboundedParser Expr := do
  advance
  expect .openParen
  within .arguments (ordering again)

def construct (word : Keyword) : UnboundedParser Expr := do
  match word with
  | .ifThen => conditional again
  | .branch =>
    advance
    return .branch (← arguments again)
  | .map => return .map (← collection again .map)
  | .filter => return .filter (← collection again .filter)
  | .each => return .each (← collection again .each)
  | .search => return .search (← collection again .search)
  | .sortBy => sortBy again
  | .elseIf | .elseThen | .asc | .desc => unexpected

def primary : UnboundedParser Expr := do
  let token ← current
  if isPropertyWord token.kind ∧ (← nextKind) ≠ .openParen then
    advance
    return .property token.value
  else
    match token.kind with
    | .number =>
      advance
      match numberLiteral token with
      | .ok e => return e
      | .error e => throw e
    | .string =>
      advance
      return .string token.value
    | .bool =>
      advance
      return .boolean (token.value == "true")
    | .null =>
      advance
      return .null
    | .regex =>
      advance
      return .regex token.value
    | .var =>
      advance
      return .var token.value
    | .symbol =>
      advance
      if (← kind) = .openParen then return .call token.value (← arguments again)
      else return .property token.value
    | .ellipsis =>
      advance
      return .spread
    | .descent =>
      advance
      descent
    | .openParen => group again
    | .openBracket => array again
    | .openBrace => object again
    | .keyword word => construct again word
    | _ => unexpected

def furtherSteps : UnboundedParser (List Expr) := do
  match (← kind) with
  | .dot =>
    advance
    let step ← primary again
    return step :: (← again.furtherSteps)
  | .descent =>
    advance
    let step ← descent
    return step :: (← again.furtherSteps)
  | .openBracket =>
    let step ← brackets again
    return step :: (← again.furtherSteps)
  | .ellipsis =>
    advance
    return .spread :: (← again.furtherSteps)
  | _ => return []

def chain : UnboundedParser Expr := do
  let first ← primary again
  let further ← furtherSteps again
  return Expr.chained (first :: further)

/-! ## Operators -/

def operand : UnboundedParser Expr := do
  match (← kind) with
  | .not =>
    advance
    return .not (← again.expression .unary)
  | .minus =>
    advance
    return negated (← chain again)
  | _ => chain again

def fold (left : Expr) (power : BindingPower) : UnboundedParser Expr := do
  let token ← current
  advance
  match token.kind with
  | .assign => return .assign left none (← again.expression .default)
  | .incrementBy => return .assign left (some .add) (← again.expression .default)
  | .decrementBy => return .assign left (some .subtract) (← again.expression .default)
  | k =>
    match BinaryOp.ofToken? k with
    | some op => return .binary op left (← again.expression power)
    | none => throw (.unexpected token)

def folds (power : BindingPower) (count : Nat) (left : Expr) : UnboundedParser Expr := do
  match BindingPower.ofToken? (← kind) with
  | some p =>
    if power < p then
      if maxDepth < (← state).depth + (count + 1) then tooDeep
      else
        let left ← fold again left p
        again.folds power (count + 1) left
    else return left
  | none => return left

def expression (power : BindingPower) : UnboundedParser Expr := deeper do
  let left ← operand again
  let whole ← folds again power 0 left
  expectEnd
  return whole

/-! ## Running -/

/-- The productions where calls are nested once more. -/
def Repeated.next : Repeated where
  sequence := UnboundedParser.sequence again
  entries := UnboundedParser.entries again
  conditional := UnboundedParser.conditional again
  furtherSteps := UnboundedParser.furtherSteps again
  folds := UnboundedParser.folds again
  expression := UnboundedParser.expression again

def unanswered : UnboundedParser α := ExceptT.mk fun _ => none

/-- The productions where calls are nested so many times. -/
def Repeated.upTo : Nat → Repeated
  | 0 =>
    { sequence := fun _ _ _ => unanswered
      entries := unanswered
      conditional := unanswered
      furtherSteps := unanswered
      folds := fun _ _ _ => unanswered
      expression := fun _ => unanswered }
  | n + 1 => (upTo n).next

/-- A whole selector: statements up to the end of the input. -/
def selector : UnboundedParser Expr := do
  return Expr.chained (← within .root (sequence again .eof .semicolon false))

/-- The outcome of a parser, and the states that it has been in after it, if it has an answer. -/
def exec (x : UnboundedParser α) (r : ParserRun) : Option (Except ParseError α × ParserRun) :=
  x.run.run r

/-- The answer of a parser where calls may be nested without a limit. -/
def Gives (x : Repeated → UnboundedParser α) (r : ParserRun)
    (answer : Except ParseError α × ParserRun) : Prop :=
  ∃ bound, ∀ n, bound ≤ n → (x (.upTo n)).exec r = some answer

end UnboundedParser

end DocSelect
