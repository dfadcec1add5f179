import Narrative.Decimal.Reading

/-!
# Slugs

A slug is a lower case ASCII letter followed by lower case ASCII letters, ASCII digits and
underscores.  Storylines, events, resources and the names in paths are slugs; a path may also hold
array indices, which are runs of ASCII digits.
-/

namespace Narrative

/-- A lower case ASCII letter. -/
def isLower (c : Char) : Bool :=
  'a' ≤ c && c ≤ 'z'

/-- A character that may follow the first one of a slug. -/
def isSlugChar (c : Char) : Bool :=
  isLower c || Decimal.isDigit c || c == '_'

/-- Whether a text is a slug. -/
def isSlugText : List Char → Bool
  | [] => false
  | c :: rest => isLower c && rest.all isSlugChar

/-- Whether a text is a run of digits. -/
def isIndexText (text : List Char) : Bool :=
  !text.isEmpty && text.all Decimal.isDigit

/-- Whether a string is a slug. -/
def isSlug (s : String) : Bool :=
  isSlugText s.toList

end Narrative
