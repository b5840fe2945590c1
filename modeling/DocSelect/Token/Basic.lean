import DocSelect.Text.Quoted

/-!
# Tokens

A selector is read as a sequence of tokens. A kind whose tokens always look the same has a fixed
text; the others carry what was read in the token's value. Positions and lengths count characters.
-/
namespace DocSelect

/-- Words with a meaning of their own where a parenthesis follows. -/
inductive Keyword where
  | ifThen
  | elseIf
  | elseThen
  | branch
  | map
  | filter
  | search
  | sortBy
  | each
  | asc
  | desc
  deriving DecidableEq, Inhabited

namespace Keyword

def text : Keyword → String
  | ifThen => "if"
  | elseIf => "elseif"
  | elseThen => "else"
  | branch => "branch"
  | map => "map"
  | filter => "filter"
  | search => "search"
  | sortBy => "sortBy"
  | each => "each"
  | asc => "asc"
  | desc => "desc"

def all : List Keyword :=
  [ifThen, elseIf, elseThen, branch, map, filter, search, sortBy, each, asc, desc]

/-- The keyword a word spells; case matters. -/
def ofText? (word : String) : Option Keyword := all.find? (·.text == word)

end Keyword

inductive TokenKind where
  /-- the end of the input -/
  | eof
  /-- a bare word: a property or a function name -/
  | symbol
  /-- a variable; the value is its name -/
  | var
  /-- a dollar sign that no name follows -/
  | dollar
  /-- a number; an `f` at its end makes it a floating point number -/
  | number
  /-- a text between quotes; the value is what the quotes hold -/
  | string
  | bool
  | null
  /-- a pattern between slashes after an `r` -/
  | regex
  | comma
  | colon
  | semicolon
  | dot
  | ellipsis
  | descent
  | openBracket
  | closeBracket
  | openBrace
  | closeBrace
  | openParen
  | closeParen
  | assign
  | equal
  | notEqual
  | like
  | notLike
  | not
  | and
  | or
  | coalesce
  | plus
  | increment
  | incrementBy
  | minus
  | decrement
  | decrementBy
  | star
  | slash
  | percent
  | greater
  | greaterEqual
  | less
  | lessEqual
  | keyword (word : Keyword)
  deriving DecidableEq, Inhabited

namespace TokenKind

/-- What a kind is called in messages; for kinds with a fixed text, that text. -/
def text : TokenKind → String
  | eof => "end of input"
  | symbol => "symbol"
  | var => "variable"
  | dollar => "$"
  | number => "number"
  | string => "string"
  | bool => "bool"
  | null => "null"
  | regex => "regex"
  | comma => ","
  | colon => ":"
  | semicolon => ";"
  | dot => "."
  | ellipsis => "..."
  | descent => ".."
  | openBracket => "["
  | closeBracket => "]"
  | openBrace => "\x7b"
  | closeBrace => "\x7d"
  | openParen => "("
  | closeParen => ")"
  | assign => "="
  | equal => "=="
  | notEqual => "!="
  | like => "=~"
  | notLike => "!~"
  | not => "!"
  | and => "&&"
  | or => "||"
  | coalesce => "??"
  | plus => "+"
  | increment => "++"
  | incrementBy => "+="
  | minus => "-"
  | decrement => "--"
  | decrementBy => "-="
  | star => "*"
  | slash => "/"
  | percent => "%"
  | greater => ">"
  | greaterEqual => ">="
  | less => "<"
  | lessEqual => "<="
  | keyword word => word.text

def isKeyword : TokenKind → Bool
  | keyword _ => true
  | _ => false

/-- The kinds of punctuation and operators, each before those whose text its own begins with. -/
def punctuation : List TokenKind :=
  [ellipsis, descent, dot, comma, colon, semicolon, openParen, closeParen, openBracket,
    closeBracket, openBrace, closeBrace, star, slash, percent, equal, like, assign, notEqual,
    notLike, not, incrementBy, increment, plus, decrementBy, decrement, minus, greaterEqual,
    greater, lessEqual, less, and, or, coalesce, dollar]

end TokenKind

/-- A token: its kind and value, and where in the input it was read. -/
structure Token where
  kind : TokenKind
  value : String
  position : Nat
  length : Nat
  deriving DecidableEq, Inhabited

namespace Token

def shown (t : Token) : String :=
  match t.kind with
  | .eof => TokenKind.eof.text
  | .string => Quoted.quote t.value
  | _ => t.value

/-- The position just after a token. -/
def stop (t : Token) : Nat := t.position + t.length

def atEnd (position : Nat) : Token := ⟨.eof, "", position, 0⟩

end Token

end DocSelect
