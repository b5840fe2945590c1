import DocSelect.Token.Lexer

/-!
# Scanning with a place in the input

A scanner keeps all of its input and moves a position along it, looking up to two characters ahead.
What is punctuation is cut out of the input, so there is no answer where the input is too short for
the cut. A scanner can be asked for a token again after an error.
-/
namespace DocSelect

/-- All characters of an input, and the position of the next one. -/
structure Scanner where
  input : List Char
  position : Nat
  deriving DecidableEq

namespace Scanner

def ofText (s : String) : Scanner := ⟨s.toList, 0⟩

/-- The character so many places ahead, if the input goes on so far. -/
def peek? (s : Scanner) (offset : Nat) : Option Char := s.input[s.position + offset]?

def current? (s : Scanner) : Option Char := s.peek? 0

/-- So many characters further on, whether the input has them or not. -/
def move (s : Scanner) (n : Nat) : Scanner := { s with position := s.position + n }

/-- How many characters are left. -/
def left (s : Scanner) : Nat := s.input.length - s.position

theorem left_move_lt {s : Scanner} {c : Char} {n : Nat} (h : s.current? = some c) (hn : 0 < n) :
    (s.move n).left < s.left := by
  obtain ⟨hlt, -⟩ := List.getElem?_eq_some_iff.1 h
  unfold left move
  dsimp only at hlt ⊢
  omega

/-- What comes of a call, and the scanner after it; none where a cut is not inside of the input. -/
abbrev Answer := Option (Except LexError Token × Scanner)

/-! ## Runs of characters -/

/-- The characters from here on that pass a test. -/
def span (test : Char → Bool) (s : Scanner) : List Char × Scanner :=
  match _h : s.current? with
  | none => ([], s)
  | some c =>
    if test c then
      let (text, s') := span test (s.move 1)
      (c :: text, s')
    else ([], s)
termination_by s.left
decreasing_by exact left_move_lt _h Nat.one_pos

def skipBlank (s : Scanner) : Scanner := (s.span isBlank).2

/-- The text up to the closing quote, unless the input ends before. -/
def quoted (quote : Char) (s : Scanner) : Option (List Char) × Scanner :=
  match _h : s.current? with
  | none => (none, s)
  | some c =>
    if c = quote then (some [], s.move 1)
    else if c = '\\' then
      match (s.move 1).current? with
      | none => (none, s.move 1)
      | some escaped =>
        let (text, s') := quoted quote (s.move 2)
        (text.map (escaped :: ·), s')
    else
      let (text, s') := quoted quote (s.move 1)
      (text.map (c :: ·), s')
termination_by s.left
decreasing_by
  · exact left_move_lt _h Nat.two_pos
  · exact left_move_lt _h Nat.one_pos

/-- The pattern up to the closing slash, unless the input ends before. -/
def pattern (s : Scanner) : Option (List Char) × Scanner :=
  match _h : s.current? with
  | none => (none, s)
  | some c =>
    if c = '/' then (some [], s.move 1)
    else if c = '\\' ∧ s.peek? 1 = some '/' then
      let (text, s') := pattern (s.move 2)
      (text.map ('/' :: ·), s')
    else
      let (text, s') := pattern (s.move 1)
      (text.map (c :: ·), s')
termination_by s.left
decreasing_by
  · exact left_move_lt _h Nat.two_pos
  · exact left_move_lt _h Nat.one_pos

/-- Digits, with one point among them if there has been none and a digit follows it. -/
def digits (pointed : Bool) (s : Scanner) : List Char × Scanner :=
  match _h : s.current? with
  | none => ([], s)
  | some c =>
    if c.isDigit then
      let (text, s') := digits pointed (s.move 1)
      (c :: text, s')
    else if c = '.' ∧ pointed = false ∧ (s.peek? 1).any Char.isDigit then
      let (text, s') := digits true (s.move 1)
      (c :: text, s')
    else ([], s)
termination_by s.left
decreasing_by
  · exact left_move_lt _h Nat.one_pos
  · exact left_move_lt _h Nat.one_pos

/-- Digits, and the mark of a floating point number if no name goes on after it. -/
def number (s : Scanner) : List Char × Scanner :=
  let (text, s') := s.digits false
  if s'.current? = some 'f' ∧ ¬ (s'.peek? 1).any Scan.isNameChar then (text ++ ['f'], s'.move 1)
  else (text, s')

/-! ## Tokens -/

/-- A token cut out of the input. -/
def symbol (kind : TokenKind) (width : Nat) (s : Scanner) : Answer :=
  if s.position + width ≤ s.input.length then
    let value := String.ofList ((s.input.drop s.position).take width)
    some (.ok ⟨kind, value, s.position, width⟩, s.move width)
  else none

/-- The token that a character is alone, and those that it is with a next one. -/
def punctuation? : Char → Option (TokenKind × List (Char × TokenKind))
  | ',' => some (.comma, [])
  | ':' => some (.colon, [])
  | ';' => some (.semicolon, [])
  | '(' => some (.openParen, [])
  | ')' => some (.closeParen, [])
  | '[' => some (.openBracket, [])
  | ']' => some (.closeBracket, [])
  | '\x7b' => some (.openBrace, [])
  | '\x7d' => some (.closeBrace, [])
  | '*' => some (.star, [])
  | '/' => some (.slash, [])
  | '%' => some (.percent, [])
  | '=' => some (.assign, [('=', .equal), ('~', .like)])
  | '!' => some (.not, [('=', .notEqual), ('~', .notLike)])
  | '+' => some (.plus, [('=', .incrementBy), ('+', .increment)])
  | '-' => some (.minus, [('=', .decrementBy), ('-', .decrement)])
  | '>' => some (.greater, [('=', .greaterEqual)])
  | '<' => some (.less, [('=', .lessEqual)])
  | _ => none

/-- The operator that a character is only twice. -/
def doubled? : Char → Option TokenKind
  | '&' => some .and
  | '|' => some .or
  | '?' => some .coalesce
  | _ => none

def oneOrTwo (single : TokenKind) (pairs : List (Char × TokenKind)) (s : Scanner) : Answer :=
  match pairs.find? fun pair => s.peek? 1 == some pair.1 with
  | some (_, kind) => s.symbol kind 2
  | none => s.symbol single 1

def dots (s : Scanner) : Answer :=
  if s.peek? 1 = some '.' ∧ s.peek? 2 = some '.' then s.symbol .ellipsis 3
  else if s.peek? 1 = some '.' then s.symbol .descent 2
  else s.symbol .dot 1

/-- A token from one place to another. -/
def upTo (start : Scanner) (kind : TokenKind) (value : String) (s : Scanner) :
    Except LexError Token × Scanner :=
  (.ok ⟨kind, value, start.position, s.position - start.position⟩, s)

/-- A token of what was read up to its end, if it has one. -/
def closed (start : Scanner) (kind : TokenKind) :
    Option (List Char) × Scanner → Except LexError Token × Scanner
  | (some text, s) => start.upTo kind (String.ofList text) s
  | (none, s) => (.error (.unterminated s.position), s)

/-- A word is a literal in any case, a keyword, or a bare word. -/
def classify (word : String) : TokenKind × String :=
  let lower := word.map Char.toLower
  if lower = "null" then (.null, lower)
  else if lower = "true" ∨ lower = "false" then (.bool, lower)
  else
    match Keyword.ofText? word with
    | some k => (.keyword k, word)
    | none => (.symbol, word)

/-- A token that begins with a character and is no punctuation. -/
def literal (s : Scanner) (c : Char) : Except LexError Token × Scanner :=
  if c = '"' ∨ c = '\'' then s.closed .string ((s.move 1).quoted c)
  -- before words, or the letter would be one
  else if c = 'r' ∧ s.peek? 1 = some '/' then s.closed .regex (s.move 2).pattern
  else if c.isDigit then
    let (text, s') := s.number
    s.upTo .number (String.ofList text) s'
  else if Scan.isNameStart c then
    let (text, s') := s.span Scan.isNameChar
    let (kind, value) := classify (String.ofList text)
    s.upTo kind value s'
  else (.error (.unexpected c s.position), s)

/-- A variable, or a dollar sign that no name follows. -/
def dollar (s : Scanner) : Answer :=
  if (s.peek? 1).any Scan.isNameStart then
    let (name, s') := (s.move 1).span Scan.isNameChar
    some (s.upTo .var (String.ofList name) s')
  else s.symbol .dollar 1

def next (s : Scanner) : Answer :=
  let s := s.skipBlank
  match s.current? with
  | none => some (.ok (.atEnd s.position), s)
  | some c =>
    if c = '$' then s.dollar
    else if c = '.' then s.dots
    else
      match punctuation? c with
      | some (single, pairs) => s.oneOrTwo single pairs
      | none =>
        match doubled? c, s.peek? 1 == some c with
        | some kind, true => s.symbol kind 2
        | _, _ => some (s.literal c)

/-- The outcomes of so many calls in a row, and the scanner after them. -/
def calls : Nat → Scanner → Option (List (Except LexError Token) × Scanner)
  | 0, s => some ([], s)
  | n + 1, s => do
    let (outcome, s) ← s.next
    let (outcomes, s) ← calls n s
    return (outcome :: outcomes, s)

/-- The tokens up to the end of the input, if it comes within so many calls. -/
def tokens : (calls : Nat) → Scanner → Option (Except LexError (List Token))
  | 0, _ => none
  | n + 1, s => do
    match ← s.next with
    | (.error e, _) => return .error e
    | (.ok token, s) =>
      if token.kind = .eof then return .ok [token]
      else return (← tokens n s).map (token :: ·)

end Scanner

end DocSelect
