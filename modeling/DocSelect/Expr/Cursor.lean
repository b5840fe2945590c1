import DocSelect.Token.Basic

/-!
# A place among tokens

A parser looks at the current token and the one after it, and moves on one token at a time. The last
token ends the input and is never left.
-/
namespace DocSelect

/-- The current token and those after it. -/
structure Cursor where
  current : Token
  rest : List Token
  deriving DecidableEq

namespace Cursor

/-- Adds the end of the input where the last token is another one. -/
def ended (tokens : List Token) : List Token :=
  match tokens.getLast? with
  | none => [Token.atEnd 0]
  | some last => if last.kind = .eof then tokens else tokens ++ [Token.atEnd last.stop]

def ofTokens (tokens : List Token) : Cursor :=
  match ended tokens with
  | [] => ⟨Token.atEnd 0, []⟩
  | first :: rest => ⟨first, rest⟩

def toList (c : Cursor) : List Token := c.current :: c.rest

def kind (c : Cursor) : TokenKind := c.current.kind

/-- The kind of the token after the current one. -/
def nextKind (c : Cursor) : TokenKind := (c.rest.head?.getD c.current).kind

/-- Moves on one token, unless this is the last one. -/
def advance (c : Cursor) : Cursor :=
  match c.rest with
  | [] => c
  | next :: rest => ⟨next, rest⟩

end Cursor

end DocSelect
