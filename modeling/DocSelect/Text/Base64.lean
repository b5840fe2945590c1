/-!
# Base64

Three bytes are written as four letters of six bits each; a last group of one or two bytes is filled
up with `=`. Reading accepts exactly what writing produces: the padding is required and the bits
that no byte uses are zero.
-/
namespace DocSelect.Base64

def letter (n : Nat) : Char :=
  if n < 26 then Char.ofNat ('A'.toNat + n)
  else if n < 52 then Char.ofNat ('a'.toNat + (n - 26))
  else if n < 62 then Char.ofNat ('0'.toNat + (n - 52))
  else if n = 62 then '+'
  else '/'

def value? (c : Char) : Option Nat :=
  if c.isUpper then some (c.toNat - 'A'.toNat)
  else if c.isLower then some (c.toNat - 'a'.toNat + 26)
  else if c.isDigit then some (c.toNat - '0'.toNat + 52)
  else if c = '+' then some 62
  else if c = '/' then some 63
  else none

/-- Writes bytes, given as numbers below 256. -/
def encode : List Nat → List Char
  | [] => []
  | [a] => [letter (a / 4), letter (a % 4 * 16), '=', '=']
  | [a, b] => [letter (a / 4), letter (a % 4 * 16 + b / 16), letter (b % 16 * 4), '=']
  | a :: b :: c :: rest =>
    letter (a / 4) :: letter (a % 4 * 16 + b / 16) :: letter (b % 16 * 4 + c / 64) ::
      letter (c % 64) :: encode rest

/-- The bytes of a last group with one or two padding signs. -/
def decodePadded : Char → Char → Char → Char → Option (List Nat)
  | p, q, '=', '=' => do
    let a ← value? p
    let b ← value? q
    if b % 16 = 0 then some [a * 4 + b / 16] else none
  | p, q, r, '=' => do
    let a ← value? p
    let b ← value? q
    let c ← value? r
    if c % 4 = 0 then some [a * 4 + b / 16, b % 16 * 16 + c / 4] else none
  | _, _, _, _ => none

def decodeGroup (p q r s : Char) : Option (List Nat) := do
  let a ← value? p
  let b ← value? q
  let c ← value? r
  let d ← value? s
  some [a * 4 + b / 16, b % 16 * 16 + c / 4, c % 4 * 64 + d]

/-- Reads bytes; only the last group may be padded. -/
def decode : List Char → Option (List Nat)
  | [] => some []
  | [p, q, r, s] => (decodeGroup p q r s).orElse fun _ => decodePadded p q r s
  | p :: q :: r :: s :: rest => do
    let group ← decodeGroup p q r s
    let others ← decode rest
    some (group ++ others)
  | _ => none

end DocSelect.Base64
