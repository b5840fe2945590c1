import DocSelect.Number.Shortest

/-!
# How floating point numbers are written

Every written form of a number has the fewest digits that read back. The forms differ in how the
digits are laid out, which a `Layout` says: where positional notation ends, whether a whole number
shows a fraction, and how exponents, zeros and the special values look.
-/
namespace DocSelect

/-- The decisions of one written form. -/
structure Layout where
  /-- The exponents of the first digit that are written positionally; none has no bounds. -/
  positional : Option (Int × Int)
  /-- Whether a whole number in positional notation ends in `.0`. -/
  showsFraction : Bool
  /-- Whether a positive exponent has a sign. -/
  signsExponent : Bool
  /-- Which of two equally near decimals is written. -/
  tie : Tie
  nan : String
  infinite : String
  negativeInfinite : String

namespace Layout

/-- The text of a value: all digits, and a fraction only where there is one. -/
def plain : Layout where
  positional := none
  showsFraction := false
  signsExponent := false
  tie := .up
  nan := "NaN"
  infinite := "inf"
  negativeInfinite := "-inf"

/-- The form shown in diagnostics: always a fraction, and an exponent below `0.0001` and from
`10 ^ 16` on. -/
def diagnostic : Layout where
  positional := some (-4, 15)
  showsFraction := true
  signsExponent := false
  tie := .up
  nan := "NaN"
  infinite := "inf"
  negativeInfinite := "-inf"

/-- The form in JSON documents, where the special values have no text of their own. -/
def json : Layout where
  positional := some (-5, 15)
  showsFraction := true
  signsExponent := true
  tie := .even
  nan := "null"
  infinite := "null"
  negativeInfinite := "null"

/-- The digits of a decimal without an exponent. -/
def positionalText (l : Layout) (d : Decimal) : String :=
  let digits := Nat.toDigits 10 d.significand
  let fraction := if l.showsFraction then ".0" else ""
  if 0 ≤ d.exponent then
    String.ofList (digits ++ List.replicate d.exponent.toNat '0') ++ fraction
  else
    let places := (-d.exponent).toNat
    let padded := List.replicate (places + 1 - digits.length) '0' ++ digits
    let whole := padded.take (padded.length - places)
    String.ofList (whole ++ '.' :: padded.drop (padded.length - places))

/-- The digits of a decimal with the point after the first one, and an exponent. -/
def exponentText (l : Layout) (d : Decimal) : String :=
  let fraction :=
    match Nat.toDigits 10 d.significand with
    | first :: [] => [first]
    | first :: rest => first :: '.' :: rest
    | [] => []
  let sign := if l.signsExponent && 0 ≤ d.leading then "+" else ""
  String.ofList fraction ++ "e" ++ sign ++ toString d.leading

def decimalText (l : Layout) (d : Decimal) : String :=
  match l.positional with
  | none => l.positionalText d
  | some (least, greatest) =>
    if least ≤ d.leading ∧ d.leading ≤ greatest then l.positionalText d else l.exponentText d

def text (l : Layout) (x : Binary64) : String :=
  match x.parts with
  | .nan _ => l.nan
  | .infinite s => if s then l.negativeInfinite else l.infinite
  | .finite s m e =>
    let sign := if s then "-" else ""
    if m = 0 then sign ++ l.positionalText ⟨0, 0⟩
    else sign ++ l.decimalText (shortest l.tie m e)

end Layout

end DocSelect
