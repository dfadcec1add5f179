import Narrative.Text.Plain
import Narrative.Text.Hex

/-!
# Quoted texts

A text is quoted by putting it between double quotes, with a backslash before each double quote
and backslash, short escapes for the tab, the two line breaks and the null character, and
`\u{…}` for every other character that does not stand for itself.
-/

namespace Narrative.Text

/-- The spelling by number of a character. -/
def spell (c : Char) : List Char :=
  '\\' :: 'u' :: '{' :: (hex c.toNat ++ ['}'])

/-- One character inside double quotes. -/
def quoteChar (c : Char) : List Char :=
  if c = '"' ∨ c = '\\' then ['\\', c]
  else if c = '\n' then ['\\', 'n']
  else if c = '\r' then ['\\', 'r']
  else if c = '\t' then ['\\', 't']
  else if c = '\x00' then ['\\', '0']
  else if isPlain c then [c]
  else spell c

/-- A text between double quotes. -/
def quote (text : List Char) : List Char :=
  '"' :: (text.flatMap quoteChar ++ ['"'])

end Narrative.Text
