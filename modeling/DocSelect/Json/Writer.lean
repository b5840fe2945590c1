import DocSelect.Number.Layout
import DocSelect.Value.Content

/-!
# Writing JSON

The compact form has no white space outside strings; the indented form puts every item and entry on
a line of its own, two spaces further in than its container. Strings escape quotes, backslashes and
the characters below the space, and nothing else. A number that is not finite is written as `null`.
-/
namespace DocSelect.Json

def hexDigit (n : Nat) : Char := Nat.digitChar n

def escape (c : Char) : List Char :=
  if c = '"' then ['\\', '"']
  else if c = '\\' then ['\\', '\\']
  else if c = '\x08' then ['\\', 'b']
  else if c = '\x0c' then ['\\', 'f']
  else if c = '\n' then ['\\', 'n']
  else if c = '\r' then ['\\', 'r']
  else if c = '\t' then ['\\', 't']
  else if c.toNat < 0x20 then
    ['\\', 'u', '0', '0', hexDigit (c.toNat / 16), hexDigit (c.toNat % 16)]
  else [c]

def writeString (s : String) : List Char := '"' :: s.toList.flatMap escape ++ ['"']

def writeScalar : Scalar → List Char
  | .null => "null".toList
  | .bool b => (if b then "true" else "false").toList
  | .int i => (toString i.toInt).toList
  | .float x => (Layout.json.text x).toList
  | .string s => writeString s

mutual

/-- The compact form. -/
def compact : Content → List Char
  | .scalar a => writeScalar a
  | .slice items => '[' :: compactItems items ++ [']']
  | .map entries => '\x7b' :: compactEntries entries ++ ['\x7d']

def compactItems : List Content → List Char
  | [] => []
  | [item] => compact item
  | item :: items => compact item ++ ',' :: compactItems items

def compactEntries : List (String × Content) → List Char
  | [] => []
  | [(key, item)] => writeString key ++ ':' :: compact item
  | (key, item) :: entries =>
    writeString key ++ ':' :: compact item ++ ',' :: compactEntries entries

end

def newLine (depth : Nat) : List Char := '\n' :: List.replicate (2 * depth) ' '

mutual

/-- The indented form of a value inside `depth` containers. -/
def indented (depth : Nat) : Content → List Char
  | .scalar a => writeScalar a
  | .slice [] => ['[', ']']
  | .slice items => '[' :: indentedItems (depth + 1) items ++ newLine depth ++ [']']
  | .map [] => ['\x7b', '\x7d']
  | .map entries => '\x7b' :: indentedEntries (depth + 1) entries ++ newLine depth ++ ['\x7d']

def indentedItems (depth : Nat) : List Content → List Char
  | [] => []
  | [item] => newLine depth ++ indented depth item
  | item :: items => newLine depth ++ indented depth item ++ ',' :: indentedItems depth items

def indentedEntries (depth : Nat) : List (String × Content) → List Char
  | [] => []
  | [(key, item)] => newLine depth ++ writeString key ++ ':' :: ' ' :: indented depth item
  | (key, item) :: entries =>
    newLine depth ++ writeString key ++ ':' :: ' ' :: indented depth item ++
      ',' :: indentedEntries depth entries

end

/-- A document: a value in one of the two forms and a line end. -/
def document (isCompact : Bool) (c : Content) : List Char :=
  (if isCompact then compact c else indented 0 c) ++ ['\n']

end DocSelect.Json
