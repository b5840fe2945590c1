import DocSelect.Expr.Parser

/-!
# Parsing with a stack

One parser can be used for several expressions in a row, also after one that has failed. It keeps
its place among the tokens, the scopes that it is in and the depth of the expressions around it in a
state, which productions change when they begin and change back when they end. All states that it
has been in are remembered, so that statements can be about every moment.
-/
namespace DocSelect

/-- A parser in a moment: all of its tokens, how many of them it has taken, the scopes around it,
the innermost first, and the number of expressions around it. -/
structure ParserState where
  tokens : List Token
  position : Nat
  scopes : List Scope
  depth : Nat
  deriving DecidableEq

namespace ParserState

def fromTokens (tokens : List Token) : ParserState := ⟨Cursor.ended tokens, 0, [], 0⟩

/-- The token so many places ahead, or the last one. -/
def peek (s : ParserState) (offset : Nat) : Token :=
  s.tokens.getD (min (s.position + offset) (s.tokens.length - 1)) (Token.atEnd 0)

def scope (s : ParserState) : Scope := s.scopes.head?.getD .root

/-- The tokens from the current one on. -/
def ahead (s : ParserState) : List Token := s.tokens.drop s.position

def advanced (s : ParserState) : ParserState :=
  if s.position < s.tokens.length - 1 then { s with position := s.position + 1 } else s

def pushed (scope : Scope) (s : ParserState) : ParserState := { s with scopes := scope :: s.scopes }

def popped (s : ParserState) : ParserState := { s with scopes := s.scopes.tail }

def entered (s : ParserState) : ParserState := { s with depth := s.depth + 1 }

def left (s : ParserState) : ParserState := { s with depth := s.depth - 1 }

end ParserState

/-- The state of a parser, and those before it, the latest first. -/
structure ParserRun where
  now : ParserState
  earlier : List ParserState
  deriving DecidableEq

namespace ParserRun

def start (tokens : List Token) : ParserRun := ⟨.fromTokens tokens, []⟩

/-- All states, the latest first. -/
def history (r : ParserRun) : List ParserState := r.now :: r.earlier

def update (f : ParserState → ParserState) (r : ParserRun) : ParserRun := ⟨f r.now, r.history⟩

end ParserRun

/-- A parser that keeps the states it has been in, also when it fails. -/
abbrev StackParser := ExceptT ParseError (StateM ParserRun)

namespace StackParser

open DocSelect.Parser

/-- The parser of an expression inside of another one. -/
abbrev Nested := BindingPower → StackParser Expr

def state : StackParser ParserState := return (← get).now

def update (f : ParserState → ParserState) : StackParser Unit := modify (.update f)

def current : StackParser Token := return (← state).peek 0

def kind : StackParser TokenKind := return (← current).kind

def nextKind : StackParser TokenKind := return ((← state).peek 1).kind

def advance : StackParser Unit := update .advanced

/-- A bound for a loop that takes a token in every round. -/
def rounds : StackParser Nat := return (← state).ahead.length

def unexpected {α : Type} : StackParser α := do throw (.unexpected (← current))

def tooDeep {α : Type} : StackParser α := do throw (.tooDeep maxDepth (← current).position)

def expect (k : TokenKind) : StackParser Unit := do
  if (← kind) = k then advance else unexpected

/-- Inside of a scope, which is left also on failure. -/
def within {α : Type} (scope : Scope) (x : StackParser α) : StackParser α := do
  update (.pushed scope)
  try x finally update .popped

/-- One expression deeper, also if it fails. -/
def deeper {α : Type} (x : StackParser α) : StackParser α := do
  if maxDepth ≤ (← state).depth then tooDeep
  else
    update .entered
    try x finally update .left

def expectEnd : StackParser Unit := do
  let k ← kind
  if k ∈ (← state).scope.terminators ∨ (BindingPower.ofToken? k).isSome then return ()
  else unexpected

/-! ## Lists of expressions -/

def sequenceLoop (nested : Nested) (close separator : TokenKind) :
    (fuel : Nat) → (filled : Bool) → StackParser (List Expr)
  | 0, _ => unexpected
  | fuel + 1, filled => do
    let k ← kind
    if k = close then
      advance
      return []
    else if k = separator then
      if filled then
        advance
        sequenceLoop nested close separator fuel false
      else unexpected
    else if k = .eof then unexpected
    else
      let e ← nested .default
      let es ← sequenceLoop nested close separator fuel true
      return e :: es

def sequence (nested : Nested) (close separator : TokenKind) : StackParser (List Expr) := do
  sequenceLoop nested close separator (← rounds) false

def arguments (nested : Nested) : StackParser (List Expr) := do
  expect .openParen
  within .arguments (sequence nested .closeParen .comma)

def statements (nested : Nested) (scope : Scope) (close : TokenKind) : StackParser Expr := do
  if (← kind) = close then unexpected
  else return Expr.chained (← within scope (sequence nested close .semicolon))

def group (nested : Nested) : StackParser Expr := do
  expect .openParen
  return .group (← statements nested .group .closeParen)

def array (nested : Nested) : StackParser Expr := do
  expect .openBracket
  return .array (← within .array (sequence nested .closeBracket .comma))

def body (nested : Nested) : StackParser Expr := do
  expect .openBrace
  statements nested .body .closeBrace

/-! ## Objects -/

def objectEntry (nested : Nested) : StackParser ObjectEntry := do
  let token ← current
  let next ← nextKind
  let alone := next == .comma || next == .closeBrace
  if token.kind = .ellipsis ∧ alone then
    advance
    return .spread none
  else if token.kind = .symbol ∧ alone then
    advance
    return .pair (.string token.value) (.property token.value)
  else if isPlainKey token.kind ∧ next = .colon then
    advance
    advance
    return .pair (.string token.value) (← nested .default)
  else
    let key ← nested .default
    if key.isSpread then return .spread none
    else if key.last.isSpread then return .spread key.dropLast?
    else
      expect .colon
      return .pair key (← nested .default)

def objectLoop (nested : Nested) : (fuel : Nat) → StackParser (List ObjectEntry)
  | 0 => unexpected
  | fuel + 1 => do
    if (← kind) = .closeBrace then
      advance
      return []
    else
      let entry ← objectEntry nested
      let k ← kind
      if k = .comma then advance
      else if k ≠ .closeBrace then unexpected
      return entry :: (← objectLoop nested fuel)

def object (nested : Nested) : StackParser Expr := do
  expect .openBrace
  within .object do return .object (← objectLoop nested (← rounds))

/-! ## Steps of a chain -/

def bound (nested : Nested) (absentBefore : TokenKind) : StackParser (Option Expr) := do
  if (← kind) = absentBefore then return none
  else return some (← nested .default)

/-- What is between brackets that are no spread, with the closing one. -/
def subscript (nested : Nested) : StackParser Expr := do
  match (← bound nested .colon), (← kind) with
  | some key, .closeBracket =>
    advance
    return .index key
  | start, _ =>
    expect .colon
    let stop ← bound nested .closeBracket
    expect .closeBracket
    return .range start stop

def brackets (nested : Nested) : StackParser Expr := do
  expect .openBracket
  if (← kind) = .ellipsis ∧ (← nextKind) = .closeBracket then
    advance
    advance
    return .spread
  else within .brackets (subscript nested)

def descent : StackParser Expr := do
  let token ← current
  match token.kind with
  | .star =>
    advance
    return .descend .scalars
  | .symbol | .string | .keyword _ =>
    advance
    return .descend (.key token.value)
  | .openBracket =>
    advance
    let number ← current
    match numberLiteral number with
    | .ok (.integer i) =>
      advance
      expect .closeBracket
      return .descend (.index i)
    | .ok _ => throw (.unexpected number)
    | .error e => throw e
  | _ => unexpected

def conditional (nested : Nested) : (fuel : Nat) → StackParser Expr
  | 0 => unexpected
  | fuel + 1 => do
    advance
    expect .openParen
    let condition ← statements nested .group .closeParen
    let consequence ← body nested
    match (← kind) with
    | .keyword .elseIf =>
      return .conditional condition consequence (some (← conditional nested fuel))
    | .keyword .elseThen =>
      advance
      return .conditional condition consequence (some (← body nested))
    | _ => return .conditional condition consequence none

def collection (nested : Nested) (construct : Keyword) : StackParser Expr := do
  let position := (← current).position
  advance
  match (← arguments nested) with
  | [] => throw (.missingExpression construct position)
  | steps => return Expr.chained steps

def direction : StackParser SortDirection := do
  if (← kind) = .comma then
    advance
    match (← kind) with
    | .keyword .asc =>
      advance
      return .ascending
    | .keyword .desc =>
      advance
      return .descending
    | _ => unexpected
  else return .ascending

/-- The key of an ordering, its direction and the closing parenthesis. -/
def ordering (nested : Nested) : StackParser Expr := do
  let key ← nested .default
  let direction ← direction
  expect .closeParen
  return .sortBy key direction

def sortBy (nested : Nested) : StackParser Expr := do
  advance
  expect .openParen
  within .arguments (ordering nested)

def construct (nested : Nested) : Keyword → StackParser Expr
  | .ifThen => do conditional nested (← rounds)
  | .branch => do
    advance
    return .branch (← arguments nested)
  | .map => return .map (← collection nested .map)
  | .filter => return .filter (← collection nested .filter)
  | .each => return .each (← collection nested .each)
  | .search => return .search (← collection nested .search)
  | .sortBy => sortBy nested
  | .elseIf | .elseThen | .asc | .desc => unexpected

def primary (nested : Nested) : StackParser Expr := do
  let token ← current
  if isPropertyWord token.kind ∧ (← nextKind) ≠ .openParen then
    advance
    return .property token.value
  else
    match token.kind with
    | .number =>
      advance
      match numberLiteral token with
      | .ok e => return e
      | .error e => throw e
    | .string =>
      advance
      return .string token.value
    | .bool =>
      advance
      return .boolean (token.value == "true")
    | .null =>
      advance
      return .null
    | .regex =>
      advance
      return .regex token.value
    | .var =>
      advance
      return .var token.value
    | .symbol =>
      advance
      if (← kind) = .openParen then return .call token.value (← arguments nested)
      else return .property token.value
    | .ellipsis =>
      advance
      return .spread
    | .descent =>
      advance
      descent
    | .openParen => group nested
    | .openBracket => array nested
    | .openBrace => object nested
    | .keyword word => construct nested word
    | _ => unexpected

def furtherSteps (nested : Nested) : (fuel : Nat) → StackParser (List Expr)
  | 0 => return []
  | fuel + 1 => do
    match (← kind) with
    | .dot =>
      advance
      let step ← primary nested
      return step :: (← furtherSteps nested fuel)
    | .descent =>
      advance
      let step ← descent
      return step :: (← furtherSteps nested fuel)
    | .openBracket =>
      let step ← brackets nested
      return step :: (← furtherSteps nested fuel)
    | .ellipsis =>
      advance
      return .spread :: (← furtherSteps nested fuel)
    | _ => return []

def chain (nested : Nested) : StackParser Expr := do
  let first ← primary nested
  let further ← furtherSteps nested (← rounds)
  return Expr.chained (first :: further)

/-! ## Operators -/

def operand (nested : Nested) : StackParser Expr := do
  match (← kind) with
  | .not =>
    advance
    return .not (← nested .unary)
  | .minus =>
    advance
    return negated (← chain nested)
  | _ => chain nested

def fold (nested : Nested) (left : Expr) (power : BindingPower) : StackParser Expr := do
  let token ← current
  advance
  match token.kind with
  | .assign => return .assign left none (← nested .default)
  | .incrementBy => return .assign left (some .add) (← nested .default)
  | .decrementBy => return .assign left (some .subtract) (← nested .default)
  | k =>
    match BinaryOp.ofToken? k with
    | some op => return .binary op left (← nested power)
    | none => throw (.unexpected token)

/-- Each infix token nests the left side one level deeper, and `count` have been taken. Levels run
out before the fuel does. -/
def folds (nested : Nested) (power : BindingPower) :
    (fuel : Nat) → (count : Nat) → (left : Expr) → StackParser Expr
  | 0, _, _ => tooDeep
  | fuel + 1, count, left => do
    match BindingPower.ofToken? (← kind) with
    | some p =>
      if power < p then
        if maxDepth < (← state).depth + (count + 1) then tooDeep
        else
          let left ← fold nested left p
          folds nested power fuel (count + 1) left
      else return left
    | none => return left

/-- An expression, with as much fuel as expressions can be nested. -/
def expression : (fuel : Nat) → Nested
  | 0, _ => tooDeep
  | fuel + 1, power => deeper do
    let left ← operand (expression fuel)
    let whole ← folds (expression fuel) power maxDepth 0 left
    expectEnd
    return whole

/-- One expression from the current token on. -/
def nextExpression (power : BindingPower) : StackParser Expr := expression (maxDepth + 1) power

/-- A whole selector: statements up to the end of the input. -/
def selector : StackParser Expr := do
  return Expr.chained (← within .root (sequence nextExpression .eof .semicolon))

/-- The outcome of a parser, and the states that it has been in after it. -/
def exec {α : Type} (x : StackParser α) (r : ParserRun) : Except ParseError α × ParserRun :=
  x.run.run r

end StackParser

/-- After an expression has been asked for, whatever has come of it. -/
def ParserRun.asked (r : ParserRun) (power : BindingPower) : ParserRun :=
  ((StackParser.nextExpression power).exec r).2

end DocSelect
