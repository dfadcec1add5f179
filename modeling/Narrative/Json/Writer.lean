import Narrative.Json.Basic
import Narrative.Text.Quoted
import Narrative.Decimal.Layout

/-!
# Writing JSON

`Json.write` has no white space; `Json.writePretty` puts each item and entry on a line of its own,
two spaces deeper than its container, and leaves empty containers on one line.  Inside strings
only double quotes, backslashes and the control characters below the space are escaped.  Floats
always have a point or an exponent, so integers and floats stay apart.
-/

namespace Narrative.Json

/-- One character inside a JSON string. -/
def escapeChar (c : Char) : List Char :=
  if c = '"' ∨ c = '\\' then ['\\', c]
  else if c = '\n' then ['\\', 'n']
  else if c = '\r' then ['\\', 'r']
  else if c = '\t' then ['\\', 't']
  else if c = '\x08' then ['\\', 'b']
  else if c = '\x0c' then ['\\', 'f']
  else if c.toNat < 0x20 then
    ['\\', 'u', '0', '0', Text.hexDigit (c.toNat / 16), Text.hexDigit (c.toNat % 16)]
  else [c]

/-- A JSON string. -/
def writeString (s : String) : List Char :=
  '"' :: (s.toList.flatMap escapeChar ++ ['"'])

/-- A number; floats that are not finite have no number and become null. -/
def writeNumber : Number → List Char
  | .int n => Decimal.integer n
  | .float x => (Decimal.scientific? x).getD ['n', 'u', 'l', 'l']

mutual

/-- The compact text of a document. -/
def write : Json → List Char
  | null => ['n', 'u', 'l', 'l']
  | bool true => ['t', 'r', 'u', 'e']
  | bool false => ['f', 'a', 'l', 's', 'e']
  | num n => writeNumber n
  | str s => writeString s
  | arr [] => ['[', ']']
  | arr (item :: rest) => '[' :: (write item ++ writeItems rest)
  | obj [] => ['{', '}']
  | obj ((name, value) :: rest) =>
    '{' :: (writeString name ++ ':' :: (write value ++ writeEntries rest))

/-- The items behind the first one, and the closing bracket. -/
def writeItems : List Json → List Char
  | [] => [']']
  | item :: rest => ',' :: (write item ++ writeItems rest)

/-- The entries behind the first one, and the closing brace. -/
def writeEntries : List (String × Json) → List Char
  | [] => ['}']
  | (name, value) :: rest =>
    ',' :: (writeString name ++ ':' :: (write value ++ writeEntries rest))

end

/-- The compact text of a document, as a string. -/
def text (document : Json) : String :=
  String.ofList document.write

/-- A line feed and the blanks before what stands at a depth. -/
def newLine (depth : Nat) : List Char :=
  '\n' :: List.replicate (2 * depth) ' '

mutual

/-- The text of a document on several lines, at a depth. -/
def writePretty (depth : Nat) : Json → List Char
  | arr (item :: rest) =>
    '[' :: (newLine (depth + 1) ++ writePretty (depth + 1) item ++ prettyItems depth rest)
  | obj ((name, value) :: rest) =>
    '{' :: (newLine (depth + 1) ++ writeString name ++ ':' :: ' ' ::
      (writePretty (depth + 1) value ++ prettyEntries depth rest))
  | null => write null
  | bool b => write (bool b)
  | num n => write (num n)
  | str s => write (str s)
  | arr [] => write (arr [])
  | obj [] => write (obj [])

/-- The lines of the items behind the first one, and the closing bracket. -/
def prettyItems (depth : Nat) : List Json → List Char
  | [] => newLine depth ++ [']']
  | item :: rest =>
    ',' :: (newLine (depth + 1) ++ writePretty (depth + 1) item ++ prettyItems depth rest)

/-- The lines of the entries behind the first one, and the closing brace. -/
def prettyEntries (depth : Nat) : List (String × Json) → List Char
  | [] => newLine depth ++ ['}']
  | (name, value) :: rest =>
    ',' :: (newLine (depth + 1) ++ writeString name ++ ':' :: ' ' ::
      (writePretty (depth + 1) value ++ prettyEntries depth rest))

end

/-- The text of a document on several lines, as a string. -/
def pretty (document : Json) : String :=
  String.ofList (document.writePretty 0)

end Narrative.Json
