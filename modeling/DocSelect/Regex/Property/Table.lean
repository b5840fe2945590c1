import DocSelect.Regex.CharSet

/-!
# Tables of characters

How the characters of a property are written down: listed, or put together from other tables. What
patterns know of characters is version 16 of the Unicode character data.

A list is a text of numbers, which are by turns the distance from the end of one span to the
beginning of the next and the length of a span beyond its first character. Numbers are hexadecimal.
The last digit of each is written `0` to `9` and `a` to `f`, and the digits before it `g` to `v`; so
no sign is needed between two numbers. Line ends and spaces do not count.
-/
namespace DocSelect.Regex.Property

inductive Table where
  | listed (code : String)
  | join (left right : Table)
  | without (left right : Table)

namespace Table

instance : Union Table := ⟨join⟩

def nothing : Table := listed ""

/-- The numbers that a text writes one behind the other; `value` is what the digits before it
write. -/
def numbers (value : Nat) : List Char → List Nat
  | [] => []
  | c :: cs =>
    if c ≤ ' ' then numbers value cs
    else if c ≤ '9' then (16 * value + (c.toNat - 0x30)) :: numbers 0 cs
    else if c ≤ 'f' then (16 * value + (c.toNat - 0x57)) :: numbers 0 cs
    else numbers (16 * value + (c.toNat - 0x67)) cs

/-- The spans that distances and lengths write, from a position on. -/
def spans (position : Nat) : List Nat → List Span
  | distance :: length :: rest =>
    let first := position + distance
    ⟨first, first + length⟩ :: spans (first + length + 1) rest
  | _ => []

def chars : Table → CharSet
  | listed code => ⟨spans 0 (numbers 0 code.toList)⟩
  | join left right => left.chars ∪ right.chars
  | without left right => left.chars.difference right.chars

end Table

/-- All characters: those up to the surrogates and those behind them. -/
def everything : Table := .listed "0tnvfog0hghvvf"

def named? (tables : List (List String × Table)) (name : String) : Option Table :=
  (tables.find? (·.1.contains name)).map (·.2)

end DocSelect.Regex.Property
