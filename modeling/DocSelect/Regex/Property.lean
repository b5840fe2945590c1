import DocSelect.Regex.Property.Age
import DocSelect.Regex.Property.Binary
import DocSelect.Regex.Property.Script
import DocSelect.Regex.Property.Segmentation

/-!
# Properties of characters

The tables that a pattern can name. Capitals, spaces, hyphens and underscores make no difference in
a name, nor does a leading `is`.
-/
namespace DocSelect.Regex.Property

/-- What a pattern asks for between the braces of a property. -/
inductive Query where
  /-- a property, category or script -/
  | name (name : String)
  /-- a property that has this value -/
  | value (property value : String)

/-- The form in which names are compared. A leading `is` is no part of a name, but `isc` is not
`c`. -/
def canonicalName (name : String) : String :=
  let cs := name.toList
  let hasIs := (cs.take 2).map Char.toLower == ['i', 's']
  let kept := (if hasIs then cs.drop 2 else cs).filter fun c =>
    c.toNat < 128 && c != ' ' && c != '_' && c != '-'
  let kept := kept.map Char.toLower
  if hasIs && kept == ['c'] then "isc" else String.ofList kept

/-- The characters of a general category, of a group of them, or of any. -/
def category? (name : String) : Option Table :=
  match name with
  | "any" => some everything
  | "assigned" => some (everything.without unassigned)
  | "ascii" => some (.listed "0nf")
  | _ => named? categories name

def Query.table? : Query → Option Table
  | name n =>
    let n := canonicalName n
    named? binaries n <|> category? n <|> script? n
  | value property v =>
    let v := canonicalName v
    match canonicalName property with
    | "gc" | "generalcategory" => category? v
    | "sc" | "script" => script? v
    | "scx" | "scriptextensions" => scriptExtensions? v
    | "age" => age? v
    | "gcb" | "graphemeclusterbreak" => named? graphemeBreaks v
    | "wb" | "wordbreak" => named? wordBreaks v
    | "sb" | "sentencebreak" => named? sentenceBreaks v
    | _ => none

def digits : CharSet := decimalNumber.chars

def spaces : CharSet := whiteSpace.chars

def wordChars : CharSet := word.chars

end DocSelect.Regex.Property
