import DocSelect.Expr.Basic
import DocSelect.Expr.Cursor
import DocSelect.Number.Reading
import DocSelect.Token.Lexer

/-!
# Parsing

Operators are parsed by binding power: an operand, and then every infix token that binds more
strongly than the expression was asked for, its right side parsed at the token's own power. Each
kind of brackets opens a scope, which says what may end an expression inside it.

`expression` takes the number of levels it may still nest; each production gets the parser of the
next level as an argument, so recursion follows that number. Loops inside a level take tokens, and
are bounded by how many are left.
-/
namespace DocSelect

inductive ParseError where
  | lexical (e : LexError)
  | unexpected (token : Token)
  | invalidNumber (value : String) (position : Nat)
  /-- a construct that needs an argument has none -/
  | missingExpression (construct : Keyword) (position : Nat)
  | tooDeep (limit position : Nat)
  deriving DecidableEq

namespace ParseError

def message : ParseError → String
  | lexical e => e.message
  | unexpected token => "unexpected token: " ++ token.shown ++ s!" at position {token.position}"
  | invalidNumber value position =>
    "invalid number " ++ Quoted.quote value ++ s!" at position {position}"
  | missingExpression construct position =>
    construct.text ++ s!"(...) requires an expression at position {position}"
  | tooDeep limit position =>
    s!"expression nested deeper than {limit} levels at position {position}"

end ParseError

inductive Scope where
  | root
  | arguments
  | array
  | object
  | group
  | brackets
  | body
  deriving DecidableEq

def Scope.terminators : Scope → List TokenKind
  | root => [.eof, .semicolon]
  | arguments => [.comma, .closeParen]
  | array => [.comma, .closeBracket]
  | object => [.comma, .closeBrace, .colon]
  | group => [.closeParen, .semicolon]
  | brackets => [.colon, .closeBracket]
  | body => [.closeBrace, .semicolon]

/-- A parser moves along the tokens and stays where it is when it fails. -/
abbrev Parser := ExceptT ParseError (StateM Cursor)

namespace Parser

def maxDepth : Nat := 128

/-- The parser of expressions one level further in. -/
abbrev Nested := Scope → BindingPower → Parser Expr

def current : Parser Token := return (← get).current

def kind : Parser TokenKind := return (← get).kind

def nextKind : Parser TokenKind := return (← get).nextKind

def advance : Parser Unit := modify Cursor.advance

/-- A bound for a loop that takes a token in every round. -/
def rounds : Parser Nat := return (← get).rest.length + 1

def unexpected {α : Type} : Parser α := do throw (.unexpected (← current))

def tooDeep {α : Type} : Parser α := do throw (.tooDeep maxDepth (← current).position)

def expect (k : TokenKind) : Parser Unit := do
  if (← kind) = k then advance else unexpected

/-- Nothing but a terminator of the scope or an infix token may come next. -/
def expectEnd (scope : Scope) : Parser Unit := do
  let k ← kind
  if k ∈ scope.terminators ∨ (BindingPower.ofToken? k).isSome then return () else unexpected

def numberLiteral (token : Token) : Except ParseError Expr :=
  let invalid : ParseError := .invalidNumber token.value token.position
  let cs := token.value.toList
  if token.kind ≠ .number then .error (.unexpected token)
  else if cs.getLast? = some 'f' then
    match Binary64.read? (String.ofList cs.dropLast) with
    | some x => .ok (.float x)
    | none => .error invalid
  else if '.' ∈ cs then
    match Binary64.read? token.value with
    | some x => .ok (.float x)
    | none => .error invalid
  else
    match readInt64? token.value with
    | some i => .ok (.integer i)
    | none => .error invalid

/-! ## Lists of expressions -/

/-- Expressions up to and including the closing token. A separator must follow an expression, so
that one at the end is allowed and an empty place is not. -/
def sequenceLoop (nested : Nested) (scope : Scope) (close separator : TokenKind) :
    (fuel : Nat) → (filled : Bool) → Parser (List Expr)
  | 0, _ => unexpected
  | fuel + 1, filled => do
    let k ← kind
    -- before all else, because the end of the input closes a whole selector
    if k = close then
      advance
      return []
    else if k = separator then
      if filled then
        advance
        sequenceLoop nested scope close separator fuel false
      else unexpected
    else if k = .eof then unexpected
    else
      let e ← nested scope .default
      let es ← sequenceLoop nested scope close separator fuel true
      return e :: es

def sequence (nested : Nested) (scope : Scope) (close separator : TokenKind) :
    Parser (List Expr) := do
  sequenceLoop nested scope close separator (← rounds) false

def arguments (nested : Nested) : Parser (List Expr) := do
  expect .openParen
  sequence nested .arguments .closeParen .comma

/-- Statements that must not be missing altogether, and their closing token. -/
def statements (nested : Nested) (scope : Scope) (close : TokenKind) : Parser Expr := do
  if (← kind) = close then unexpected
  else return Expr.chained (← sequence nested scope close .semicolon)

def group (nested : Nested) : Parser Expr := do
  expect .openParen
  return .group (← statements nested .group .closeParen)

def array (nested : Nested) : Parser Expr := do
  expect .openBracket
  return .array (← sequence nested .array .closeBracket .comma)

def body (nested : Nested) : Parser Expr := do
  expect .openBrace
  statements nested .body .closeBrace

/-! ## Objects -/

/-- Whether a token can be a key as it stands. -/
def isPlainKey (k : TokenKind) : Bool := k == .symbol || k == .string || k.isKeyword

def objectEntry (nested : Nested) : Parser ObjectEntry := do
  let token ← current
  let next ← nextKind
  let alone := next == .comma || next == .closeBrace
  if token.kind = .ellipsis ∧ alone then
    advance
    return .spread none
  else if token.kind = .symbol ∧ alone then
    -- a bare word is both the key and the property looked up
    advance
    return .pair (.string token.value) (.property token.value)
  else if isPlainKey token.kind ∧ next = .colon then
    advance
    advance
    return .pair (.string token.value) (← nested .object .default)
  else
    let key ← nested .object .default
    -- what was read as a key may turn out to be a spread, which has no value
    if key.isSpread then return .spread none
    else if key.last.isSpread then return .spread key.dropLast?
    else
      expect .colon
      return .pair key (← nested .object .default)

def objectLoop (nested : Nested) : (fuel : Nat) → Parser (List ObjectEntry)
  | 0 => unexpected
  | fuel + 1 => do
    if (← kind) = .closeBrace then
      advance
      return []
    else
      let entry ← objectEntry nested
      let k ← kind
      if k = .comma then advance
      else if k ≠ .closeBrace then unexpected
      return entry :: (← objectLoop nested fuel)

def object (nested : Nested) : Parser Expr := do
  expect .openBrace
  return .object (← objectLoop nested (← rounds))

/-! ## Steps of a chain -/

/-- A bound of a range: absent before this token. -/
def bound (nested : Nested) (absentBefore : TokenKind) : Parser (Option Expr) := do
  if (← kind) = absentBefore then return none
  else return some (← nested .brackets .default)

def brackets (nested : Nested) : Parser Expr := do
  expect .openBracket
  if (← kind) = .ellipsis ∧ (← nextKind) = .closeBracket then
    advance
    advance
    return .spread
  else
    match (← bound nested .colon), (← kind) with
    | some key, .closeBracket =>
      advance
      return .index key
    | start, _ =>
      expect .colon
      let stop ← bound nested .closeBracket
      expect .closeBracket
      return .range start stop

def descent : Parser Expr := do
  let token ← current
  match token.kind with
  | .star =>
    advance
    return .descend .scalars
  | .symbol | .string | .keyword _ =>
    advance
    return .descend (.key token.value)
  | .openBracket =>
    advance
    let number ← current
    match numberLiteral number with
    | .ok (.integer i) =>
      advance
      expect .closeBracket
      return .descend (.index i)
    | .ok _ => throw (.unexpected number)
    | .error e => throw e
  | _ => unexpected

/-- A conditional from its first word on; further conditions and the last alternative may follow. -/
def conditional (nested : Nested) : (fuel : Nat) → Parser Expr
  | 0 => unexpected
  | fuel + 1 => do
    advance
    expect .openParen
    let condition ← statements nested .group .closeParen
    let consequence ← body nested
    match (← kind) with
    | .keyword .elseIf =>
      return .conditional condition consequence (some (← conditional nested fuel))
    | .keyword .elseThen =>
      advance
      return .conditional condition consequence (some (← body nested))
    | _ => return .conditional condition consequence none

/-- The arguments of a construct over a collection; there must be one, and several make a chain. -/
def collection (nested : Nested) (construct : Keyword) : Parser Expr := do
  let position := (← current).position
  advance
  match (← arguments nested) with
  | [] => throw (.missingExpression construct position)
  | steps => return Expr.chained steps

def direction : Parser SortDirection := do
  if (← kind) = .comma then
    advance
    match (← kind) with
    | .keyword .asc =>
      advance
      return .ascending
    | .keyword .desc =>
      advance
      return .descending
    | _ => unexpected
  else return .ascending

def sortBy (nested : Nested) : Parser Expr := do
  advance
  expect .openParen
  let key ← nested .arguments .default
  let direction ← direction
  expect .closeParen
  return .sortBy key direction

def construct (nested : Nested) : Keyword → Parser Expr
  | .ifThen => do conditional nested (← rounds)
  | .branch => do
    advance
    return .branch (← arguments nested)
  | .map => return .map (← collection nested .map)
  | .filter => return .filter (← collection nested .filter)
  | .each => return .each (← collection nested .each)
  | .search => return .search (← collection nested .search)
  | .sortBy => sortBy nested
  | .elseIf | .elseThen | .asc | .desc => unexpected

/-- Whether a keyword is a property where no parenthesis follows. -/
def isPropertyWord : TokenKind → Bool
  | .keyword .ifThen | .keyword .elseIf | .keyword .elseThen => false
  | .keyword _ => true
  | _ => false

def primary (nested : Nested) : Parser Expr := do
  let token ← current
  if isPropertyWord token.kind ∧ (← nextKind) ≠ .openParen then
    advance
    return .property token.value
  else
    match token.kind with
    | .number =>
      advance
      match numberLiteral token with
      | .ok e => return e
      | .error e => throw e
    | .string =>
      advance
      return .string token.value
    | .bool =>
      advance
      return .boolean (token.value == "true")
    | .null =>
      advance
      return .null
    | .regex =>
      advance
      return .regex token.value
    | .var =>
      advance
      return .var token.value
    | .symbol =>
      advance
      if (← kind) = .openParen then return .call token.value (← arguments nested)
      else return .property token.value
    | .ellipsis =>
      advance
      return .spread
    | .descent =>
      advance
      descent
    | .openParen => group nested
    | .openBracket => array nested
    | .openBrace => object nested
    | .keyword word => construct nested word
    | _ => unexpected

def furtherSteps (nested : Nested) : (fuel : Nat) → Parser (List Expr)
  | 0 => return []
  | fuel + 1 => do
    match (← kind) with
    | .dot =>
      advance
      let step ← primary nested
      return step :: (← furtherSteps nested fuel)
    | .descent =>
      advance
      let step ← descent
      return step :: (← furtherSteps nested fuel)
    | .openBracket =>
      let step ← brackets nested
      return step :: (← furtherSteps nested fuel)
    | .ellipsis =>
      advance
      return .spread :: (← furtherSteps nested fuel)
    | _ => return []

def chain (nested : Nested) : Parser Expr := do
  let first ← primary nested
  let further ← furtherSteps nested (← rounds)
  return Expr.chained (first :: further)

/-! ## Operators -/

/-- The negation of an expression: of a number literal, or a difference from zero. -/
def negated : Expr → Expr
  | .integer i => .integer (-i)
  | .float x => .float x.neg
  | e => .binary .subtract (.integer 0) e

def operand (nested : Nested) (scope : Scope) : Parser Expr := do
  match (← kind) with
  | .not =>
    advance
    return .not (← nested scope .unary)
  | .minus =>
    advance
    return negated (← chain nested)
  | _ => chain nested

/-- The infix token here, with its power, and its right side. An assignment takes all that
follows. -/
def fold (nested : Nested) (scope : Scope) (left : Expr) (power : BindingPower) : Parser Expr := do
  let token ← current
  advance
  match token.kind with
  -- the power of the beginning, so that further assignments belong to the right side
  | .assign => return .assign left none (← nested scope .default)
  | .incrementBy => return .assign left (some .add) (← nested scope .default)
  | .decrementBy => return .assign left (some .subtract) (← nested scope .default)
  | k =>
    match BinaryOp.ofToken? k with
    | some op => return .binary op left (← nested scope power)
    | none => throw (.unexpected token)

/-- Takes infix tokens that bind more strongly than `power`; each nests the left side one level
deeper, and `levels` are left. -/
def folds (nested : Nested) (scope : Scope) (power : BindingPower) :
    (levels : Nat) → (left : Expr) → Parser Expr
  | levels, left => do
    match BindingPower.ofToken? (← kind) with
    | some p =>
      if power < p then
        match levels with
        | 0 => tooDeep
        | levels + 1 =>
          let left ← fold nested scope left p
          folds nested scope power levels left
      else return left
    | none => return left

/-- An expression whose infix tokens bind more strongly than `power`. -/
def expression : (levels : Nat) → Nested
  | 0, _, _ => tooDeep
  | levels + 1, scope, power => do
    let left ← operand (expression levels) scope
    let whole ← folds (expression levels) scope power levels left
    expectEnd scope
    return whole

/-- A whole selector: statements up to the end of the input. -/
def selector : Parser Expr := do
  return Expr.chained (← sequence (expression maxDepth) .root .eof .semicolon)

end Parser

/-- One expression from a place on, and the place reached, also on failure. -/
def parseExpression (power : BindingPower) (c : Cursor) : Except ParseError Expr × Cursor :=
  (Parser.expression Parser.maxDepth .root power).run.run c

def parseTokens (tokens : List Token) : Except ParseError Expr :=
  (Parser.selector.run.run (Cursor.ofTokens tokens)).1

def parse (s : String) : Except ParseError Expr :=
  match tokenize s with
  | .ok tokens => parseTokens tokens
  | .error e => .error (.lexical e)

end DocSelect
