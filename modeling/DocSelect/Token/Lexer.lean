import DocSelect.Text.Blank
import DocSelect.Text.Numerals
import DocSelect.Token.Basic

/-!
# Reading tokens

`scan` decides by the first characters what token stands at the head of a text and how many
characters it takes. A `Lexer` is the rest of the input and the position reached; `Lexer.next` skips
white space and takes one token off. It answers after an error too: a character that begins no token
stays where it is, and a text or pattern that is not closed takes the rest of the input.
-/
namespace DocSelect

inductive LexError where
  /-- no token begins with this character -/
  | unexpected (c : Char) (position : Nat)
  /-- the input ended inside quotes or a pattern -/
  | unterminated (position : Nat)
  deriving DecidableEq

namespace LexError

def message : LexError → String
  | unexpected c position => "unexpected token: " ++ c.toString ++ s!" at position {position}"
  | unterminated position => s!"unexpected end of input at position {position}"

end LexError

/-- What stands at the head of a text; a lexeme takes `width` characters. -/
inductive Scan where
  | lexeme (kind : TokenKind) (value : String) (width : Nat)
  | unexpected (c : Char)
  | unterminated
  deriving DecidableEq

namespace Scan

def isNameStart (c : Char) : Bool := isAlphabetic c || c == '_'

def isNameChar (c : Char) : Bool := isAlphanumeric c || c == '_'

/-- The text up to the closing quote, and how many characters that takes with the quote. A character
after a backslash stands for itself. -/
def quoted (quote : Char) : List Char → Option (List Char × Nat)
  | [] => none
  | c :: cs =>
    if c = quote then some ([], 1)
    else if c = '\\' then
      match cs with
      | [] => none
      | escaped :: cs => (quoted quote cs).map fun (text, n) => (escaped :: text, n + 2)
    else (quoted quote cs).map fun (text, n) => (c :: text, n + 1)

/-- The pattern up to the closing slash, and how many characters that takes with the slash. Only a
slash is taken from behind a backslash. -/
def pattern : List Char → Option (List Char × Nat)
  | [] => none
  | '/' :: _ => some ([], 1)
  | '\\' :: '/' :: cs => (pattern cs).map fun (text, n) => ('/' :: text, n + 2)
  | c :: cs => (pattern cs).map fun (text, n) => (c :: text, n + 1)

/-- The point and the digits of a fraction, if a digit follows the point. -/
def fraction : List Char → List Char
  | '.' :: cs =>
    if (cs.head?.map Char.isDigit).getD false then '.' :: cs.takeWhile Char.isDigit else []
  | _ => []

/-- The mark of a floating point number, if no name goes on after it. -/
def floatMark : List Char → List Char
  | 'f' :: cs => if (cs.head?.map isNameChar).getD false then [] else ['f']
  | _ => []

/-- The characters of the number at the head of a text. -/
def number (cs : List Char) : List Char :=
  let whole := cs.takeWhile Char.isDigit
  let part := whole ++ fraction (cs.drop whole.length)
  part ++ floatMark (cs.drop part.length)

/-- A word is a literal in any case, a keyword, or a bare word. -/
def word (text : String) (width : Nat) : Scan :=
  let lower := text.map Char.toLower
  if lower = "null" then lexeme .null lower width
  else if lower = "true" ∨ lower = "false" then lexeme .bool lower width
  else
    match Keyword.ofText? text with
    | some k => lexeme (.keyword k) text width
    | none => lexeme .symbol text width

/-- Punctuation and operators: the longest that fits. -/
def punctuation (c : Char) (cs : List Char) : Scan :=
  match TokenKind.punctuation.find? fun k => k.text.toList.isPrefixOf (c :: cs) with
  | some k => lexeme k k.text k.text.length
  | none => unexpected c

/-- What stands at the head of a text. -/
def of : List Char → Scan
  | [] => lexeme .eof "" 0
  | c :: cs =>
    if c = '$' ∧ (cs.head?.map isNameStart).getD false then
      let name := cs.takeWhile isNameChar
      lexeme .var (String.ofList name) (name.length + 1)
    else if c = '"' ∨ c = '\'' then
      match quoted c cs with
      | some (text, n) => lexeme .string (String.ofList text) (n + 1)
      | none => unterminated
    -- before words, or the letter would be one
    else if c = 'r' ∧ cs.head? = some '/' then
      match pattern (cs.drop 1) with
      | some (text, n) => lexeme .regex (String.ofList text) (n + 2)
      | none => unterminated
    else if c.isDigit then
      let text := number (c :: cs)
      lexeme .number (String.ofList text) text.length
    else if isNameStart c then
      let text := (c :: cs).takeWhile isNameChar
      word (String.ofList text) text.length
    else punctuation c cs

end Scan

/-- The rest of an input, and how many characters of it have been read. -/
structure Lexer where
  rest : List Char
  position : Nat
  deriving DecidableEq

namespace Lexer

def ofText (s : String) : Lexer := ⟨s.toList, 0⟩

def drop (l : Lexer) (n : Nat) : Lexer := ⟨l.rest.drop n, l.position + n⟩

def skipBlank (l : Lexer) : Lexer := l.drop (l.rest.takeWhile isBlank).length

def next (l : Lexer) : Except LexError Token × Lexer :=
  let l := l.skipBlank
  match Scan.of l.rest with
  | .lexeme kind value width => (.ok ⟨kind, value, l.position, width⟩, l.drop width)
  | .unexpected c => (.error (.unexpected c l.position), l)
  | .unterminated =>
    let l := l.drop l.rest.length
    (.error (.unterminated l.position), l)

/-- Takes tokens off up to the end of the input; every other token takes a character at least. -/
def tokens : (fuel : Nat) → Lexer → Except LexError (List Token)
  | 0, _ => .ok []
  | fuel + 1, l =>
    match l.next with
    | (.error e, _) => .error e
    | (.ok token, l) =>
      if token.kind = .eof then .ok [token]
      else (tokens fuel l).map (token :: ·)

end Lexer

/-- The tokens of a selector, the end of the input as the last one. -/
def tokenize (s : String) : Except LexError (List Token) :=
  let l := Lexer.ofText s
  l.tokens (l.rest.length + 1)

end DocSelect
