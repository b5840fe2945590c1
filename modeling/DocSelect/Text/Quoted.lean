import DocSelect.Text.Printable

/-!
# Quoted text

The form in which messages show a text: between double quotes, with quotes, backslashes and the
usual controls escaped by a letter, and every other character that does not show on its own by its
code point.
-/
namespace DocSelect.Quoted

def escape (c : Char) : List Char :=
  if c = '"' then ['\\', '"']
  else if c = '\\' then ['\\', '\\']
  else if c = '\n' then ['\\', 'n']
  else if c = '\r' then ['\\', 'r']
  else if c = '\t' then ['\\', 't']
  else if c = '\x00' then ['\\', '0']
  else if isPrintable c then [c]
  else ['\\', 'u', '\x7b'] ++ Nat.toDigits 16 c.toNat ++ ['\x7d']

def quote (s : String) : String :=
  String.ofList ('"' :: s.toList.flatMap escape ++ ['"'])

end DocSelect.Quoted
