import DocSelect.Regex.Property

/-!
# Places between characters

The tests that a pattern can make on a place in a text: on whether it is an end of the text, of a
line or of a word.
-/
namespace DocSelect.Regex

inductive Repertoire where
  | ascii
  | unicode
  deriving DecidableEq

def Repertoire.wordChars : Repertoire → CharSet
  | ascii => CharSet.asciiWord
  | unicode => Property.wordChars

inductive Place where
  | textStart
  | textEnd
  | lineStart
  | lineEnd
  /-- Like `lineStart`, where carriage returns end lines too, alone or before a line feed. -/
  | returnLineStart
  | returnLineEnd
  | wordBoundary (r : Repertoire)
  | noWordBoundary (r : Repertoire)
  | wordStart (r : Repertoire)
  | wordEnd (r : Repertoire)
  | noWordBefore (r : Repertoire)
  | noWordAfter (r : Repertoire)
  deriving DecidableEq

namespace Place

/-- Whether there is a character and it belongs to a word. -/
def isWord (r : Repertoire) : Option Char → Bool
  | some c => r.wordChars.contains c
  | none => false

/-- Whether the place between two characters, or at an end of the text, passes the test. -/
def holds : Place → (before after : Option Char) → Bool
  | textStart, before, _ => before.isNone
  | textEnd, _, after => after.isNone
  | lineStart, before, _ => before.isNone || before == some '\n'
  | lineEnd, _, after => after.isNone || after == some '\n'
  | returnLineStart, before, after =>
    before.isNone || before == some '\n' || (before == some '\r' && after != some '\n')
  | returnLineEnd, before, after =>
    after.isNone || after == some '\r' || (after == some '\n' && before != some '\r')
  | wordBoundary r, before, after => isWord r before != isWord r after
  | noWordBoundary r, before, after => isWord r before == isWord r after
  | wordStart r, before, after => !isWord r before && isWord r after
  | wordEnd r, before, after => isWord r before && !isWord r after
  | noWordBefore r, before, _ => !isWord r before
  | noWordAfter r, _, after => !isWord r after

end Place

end DocSelect.Regex
