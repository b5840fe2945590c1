import DocSelect.Regex.Parser
import DocSelect.Regex.Weight

/-!
# Searching with patterns

A pattern is read from its notation, and it occurs in a text if it matches some part of it.
-/
namespace DocSelect.Regex

/-- The pattern that a text writes, unless it is malformed, without a meaning or too heavy. -/
def Pattern.read? (s : String) : Option TextPattern := do
  let parsed ← Syntax.read? s
  let (p, _) ← parsed.meaning? {}
  if p.isLight then some p else none

/-- Whether a pattern matches some part of a text. -/
def Pattern.occursIn (p : TextPattern) (text : String) : Bool :=
  (p.map CharSet.contains Place.holds).occurs text.toList

end DocSelect.Regex
