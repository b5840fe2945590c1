import DocSelect.Dict
import DocSelect.Number.Reading
import DocSelect.Value.Content

/-!
# Reading JSON

`Json.read?` accepts the texts of RFC 8259 whose containers nest at most 127 deep, and gives their
content. A key that is repeated keeps its first place and its last value. A number without fraction
and exponent is an integer if it fits into 64 bits; every other one is a floating point number,
whose digits are taken up to 64 bits and then scaled by powers of ten.

Every reader takes the rest of the text and gives back what it left over.
-/
namespace DocSelect.Json

/-- A reader: a result and the characters after it, or nothing if the text is malformed. -/
abbrev Reader (α : Type) := List Char → Option (α × List Char)

/-- Containers nest at most this deep. -/
def maxNesting : Nat := 127

def isSpace (c : Char) : Bool := c = ' ' || c = '\n' || c = '\t' || c = '\r'

def skipSpace (cs : List Char) : List Char := cs.dropWhile isSpace

/-! ## Numbers -/

/-- Adds the digits before the point to a significand of at most 64 bits; those after the first that
does not fit only raise the exponent. -/
def takeWhole : (significand : Nat) → List Char → Nat × Int
  | n, [] => (n, 0)
  | n, c :: cs =>
    let m := 10 * n + digitValue c
    if m < UInt64.size then takeWhole m cs else (n, cs.length + 1)

/-- Adds the digits after the point, up to the first that does not fit. -/
def takeFraction : (significand : Nat) → (exponent : Int) → List Char → Nat × Int
  | n, e, [] => (n, e)
  | n, e, c :: cs =>
    let m := 10 * n + digitValue c
    if m < UInt64.size then takeFraction m (e - 1) cs else (n, e)

/--
Scales by a power of ten, by 308 digits at most at a time; there is no result above the range. A
significand below `2 ^ 64` is zero after two divisions, so `fuel` need not be large.
-/
def scaleTen : (fuel : Nat) → Binary64 → (exponent : Int) → Option Binary64
  | 0, x, _ => some x
  | fuel + 1, x, exponent =>
    if exponent.natAbs ≤ 308 then
      if 0 ≤ exponent then
        let y := x.mul (Binary64.tenPow exponent.toNat)
        if y.isFinite then some y else none
      else some (x.div (Binary64.tenPow exponent.natAbs))
    else if x.isZero then some x
    else if 0 ≤ exponent then none
    else scaleTen fuel (x.div (Binary64.tenPow 308)) (exponent + 308)

def floatValue? (negative : Bool) (whole fraction : List Char) (exponent : Int) : Option Scalar :=
  let (n, e) := takeWhole 0 whole
  let (n, e) := takeFraction n e fraction
  (scaleTen 5 (Binary64.ofNat n) (e + exponent)).map fun x =>
    .float (if negative then x.neg else x)

/-- The number with these digits and no fraction or exponent. Minus zero is a floating point
number. -/
def wholeValue? (negative : Bool) (digits : List Char) : Option Scalar :=
  let n : Int := digitsValue digits
  -- no integer is a negative zero
  if negative && n = 0 then some (.float (Binary64.zero true))
  else
    match int64? (if negative then -n else n) with
    | some i => some (.int i)
    | none => floatValue? negative digits [] 0

/-- The digits before the point: one zero, or digits that begin with another one. -/
def readWhole : Reader (List Char)
  | '0' :: cs => if (cs.head?.map Char.isDigit).getD false then none else some (['0'], cs)
  | cs =>
    let digits := cs.takeWhile Char.isDigit
    if digits.isEmpty then none else some (digits, cs.dropWhile Char.isDigit)

/-- The digits after a point, if there is one; at least one. -/
def readFraction : Reader (Option (List Char))
  | '.' :: cs =>
    let digits := cs.takeWhile Char.isDigit
    if digits.isEmpty then none else some (some digits, cs.dropWhile Char.isDigit)
  | cs => some (none, cs)

/-- A written exponent, if there is one. -/
def readExponent : Reader (Option Int)
  | [] => some (none, [])
  | c :: cs =>
    if c = 'e' ∨ c = 'E' then
      let (negative, cs) := splitSign cs
      let digits := cs.takeWhile Char.isDigit
      let n : Int := digitsValue digits
      if digits.isEmpty then none
      else some (some (if negative then -n else n), cs.dropWhile Char.isDigit)
    else some (none, c :: cs)

def readNumber (cs : List Char) : Option (Scalar × List Char) := do
  let (negative, cs) := match cs with
    | '-' :: cs => (true, cs)
    | cs => (false, cs)
  let (whole, cs) ← readWhole cs
  let (fraction, cs) ← readFraction cs
  let (exponent, cs) ← readExponent cs
  let value ←
    if fraction.isNone && exponent.isNone then wholeValue? negative whole
    else floatValue? negative whole (fraction.getD []) (exponent.getD 0)
  return (value, cs)

/-! ## Strings -/

def hexValue? (c : Char) : Option Nat :=
  if c.isDigit then some (c.toNat - '0'.toNat)
  else if 'a' ≤ c ∧ c ≤ 'f' then some (c.toNat - 'a'.toNat + 10)
  else if 'A' ≤ c ∧ c ≤ 'F' then some (c.toNat - 'A'.toNat + 10)
  else none

def hexFour? (a b c d : Char) : Option Nat := do
  return (((← hexValue? a) * 16 + (← hexValue? b)) * 16 + (← hexValue? c)) * 16 +
    (← hexValue? d)

/-- The character that a letter after a backslash stands for. -/
def escaped? (c : Char) : Option Char :=
  if c = '"' ∨ c = '\\' ∨ c = '/' then some c
  else if c = 'b' then some '\x08'
  else if c = 'f' then some '\x0c'
  else if c = 'n' then some '\n'
  else if c = 'r' then some '\r'
  else if c = 't' then some '\t'
  else none

/-- The first half of a pair of code units. -/
def isHighUnit (n : Nat) : Bool := 0xd800 ≤ n && n ≤ 0xdbff

/-- The second half of a pair of code units. -/
def isLowUnit (n : Nat) : Bool := 0xdc00 ≤ n && n ≤ 0xdfff

/-- The characters up to the closing quote. A code unit of a pair needs its other half. -/
def readCharacters : Reader (List Char)
  | [] => none
  | '"' :: cs => some ([], cs)
  | '\\' :: 'u' :: a :: b :: c :: d :: cs => do
    let n ← hexFour? a b c d
    if isLowUnit n then none
    else if isHighUnit n then
      match cs with
      | '\\' :: 'u' :: e :: f :: g :: h :: cs => do
        let m ← hexFour? e f g h
        if isLowUnit m then
          let (text, cs) ← readCharacters cs
          return (Char.ofNat (0x10000 + (n - 0xd800) * 0x400 + (m - 0xdc00)) :: text, cs)
        else none
      | _ => none
    else
      let (text, cs) ← readCharacters cs
      return (Char.ofNat n :: text, cs)
  | '\\' :: c :: cs => do
    let c ← escaped? c
    let (text, cs) ← readCharacters cs
    return (c :: text, cs)
  | c :: cs =>
    if c = '\\' ∨ c.toNat < 0x20 then none
    else do
      let (text, cs) ← readCharacters cs
      return (c :: text, cs)

/-! ## Values -/

def readWord (word : String) (value : Scalar) (cs : List Char) : Option (Content × List Char) :=
  if word.toList.isPrefixOf cs then some (.scalar value, cs.drop word.length) else none

/-- The items of an array up to the closing bracket, the first of which may begin here; each takes a
character at least. -/
def readItems (value : Reader Content) : (fuel : Nat) → Reader (List Content)
  | 0, _ => none
  | fuel + 1, cs => do
    let (item, cs) ← value cs
    match skipSpace cs with
    | ',' :: cs =>
      let (items, cs) ← readItems value fuel cs
      return (item :: items, cs)
    | ']' :: cs => some ([item], cs)
    | _ => none

def readEntry (value : Reader Content) (cs : List Char) :
    Option ((String × Content) × List Char) :=
  match skipSpace cs with
  | '"' :: cs => do
    let (key, cs) ← readCharacters cs
    match skipSpace cs with
    | ':' :: cs =>
      let (item, cs) ← value cs
      return ((String.ofList key, item), cs)
    | _ => none
  | _ => none

def readEntries (value : Reader Content) : (fuel : Nat) → Reader (List (String × Content))
  | 0, _ => none
  | fuel + 1, cs => do
    let (entry, cs) ← readEntry value cs
    match skipSpace cs with
    | ',' :: cs =>
      let (entries, cs) ← readEntries value fuel cs
      return (entry :: entries, cs)
    | '\x7d' :: cs => some ([entry], cs)
    | _ => none

/-- A value within which containers nest at most `levels` deep. -/
def readValue : (levels : Nat) → Reader Content
  | levels, cs =>
    match skipSpace cs with
    | 'n' :: cs => readWord "null" .null ('n' :: cs)
    | 't' :: cs => readWord "true" (.bool true) ('t' :: cs)
    | 'f' :: cs => readWord "false" (.bool false) ('f' :: cs)
    | '"' :: cs => (readCharacters cs).map fun (text, cs) => (.string (String.ofList text), cs)
    | '[' :: cs =>
      match levels with
      | 0 => none
      | levels + 1 =>
        match skipSpace cs with
        | ']' :: cs => some (.slice [], cs)
        | cs =>
          (readItems (readValue levels) cs.length cs).map fun (items, cs) => (.slice items, cs)
    | '\x7b' :: cs =>
      match levels with
      | 0 => none
      | levels + 1 =>
        match skipSpace cs with
        | '\x7d' :: cs => some (.map [], cs)
        | cs =>
          (readEntries (readValue levels) cs.length cs).map fun (entries, cs) =>
            (.map (Dict.ofList entries).entries, cs)
    | cs => (readNumber cs).map fun (value, cs) => (.scalar value, cs)

def read? (s : String) : Option Content :=
  match readValue maxNesting s.toList with
  | some (value, rest) => if (skipSpace rest).isEmpty then some value else none
  | none => none

end DocSelect.Json
