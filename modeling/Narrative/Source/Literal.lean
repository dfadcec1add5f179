import Narrative.Source.Error
import Narrative.Decimal.Reading
import Narrative.Slug
import Narrative.Operand.Basic
import Narrative.Text.Search
import Narrative.Text.Blank

/-!
# Single operands

Each kind of operand but the arrays has a reader of its own for a whole trimmed token.  A string
stands between two equal quotes; inside, a backslash takes the special meaning away from the quote
and from itself and is an ordinary character before any other one.
-/

namespace Narrative.Source

/-- The words for null. -/
def nullWords : List String :=
  ["null", "Null", "NULL", "None", "none", "NONE"]

/-- The boolean that a word names. -/
def boolean? (token : String) : Option Bool :=
  if ["true", "True", "TRUE"].contains token then some true
  else if ["false", "False", "FALSE"].contains token then some false
  else none

/-- A character that a numeral may hold. -/
def isNumeralChar (c : Char) : Bool :=
  Decimal.isDigit c || c == '.' || c == '-' || c == '+' || c == 'e' || c == 'E'

/-- The finite float that a token writes. -/
def numeral? (token : List Char) : Option Float :=
  if token.any Decimal.isDigit && token.all isNumeralChar then
    match Decimal.Numeral.read? token with
    | some n => if n.value.isFinite then some n.value else none
    | none => none
  else none

/-- The characters of a string between its quotes; `none` for a quote without a backslash or a
backslash at the end. -/
def unescape? (mark : Char) : List Char → Option (List Char)
  | [] => some []
  | c :: rest =>
    if c = '\\' then
      match rest with
      | [] => none
      | e :: rest =>
        if e = mark ∨ e = '\\' then (unescape? mark rest).map (e :: ·)
        else (unescape? mark rest).map fun text => '\\' :: e :: text
    else if c = mark then none
    else (unescape? mark rest).map (c :: ·)

/-- The string that a token writes which starts with the given quote. -/
def string? (mark : Char) (token : List Char) : Option (List Char) :=
  match token with
  | [] => none
  | _ :: rest => if rest.getLast? = some mark then unescape? mark rest.dropLast else none

/-- The first segments of an access, written in full or by its first letter; `sl` stands for the
storyline in which the statement is written. -/
def firstSegments (storyline : Option String) (token first : String) :
    Except SourceError (List String) :=
  if first = "global" ∨ first = "g" then .ok ["global"]
  else if first = "resources" ∨ first = "r" then .ok ["resources"]
  else if first = "storylines" ∨ first = "s" then .ok ["storylines"]
  else if first = "sl" then
    match storyline with
    | some storyline => .ok ["storylines", storyline]
    | none => .error (.missingStoryline token)
  else .error (.invalidFirstLevel token first)

/-- The access that a token writes: a slug and at least one more segment, each a slug or an index,
with points between them.  `none` when the token has another shape. -/
def access? (storyline : Option String) (token : List Char) :
    Option (Except SourceError Access) :=
  match Text.pieces '.' token with
  | first :: rest =>
    if rest.isEmpty || !isSlugText first || !rest.all (fun s => isSlugText s || isIndexText s) then
      none
    else
      some ((firstSegments storyline (String.ofList token) (String.ofList first)).map fun start =>
        ⟨start ++ rest.map String.ofList⟩)
  | [] => none

/-! ### Arrays -/

/-- The text between the brackets of an array, trimmed. -/
def inside? : List Char → Option (List Char)
  | '[' :: rest => if rest.getLast? = some ']' then some (Text.trim rest.dropLast) else none
  | _ => none

/-- Where a scan of the items of an array stands: inside how many brackets, inside which quotes,
and whether a backslash stands just before. -/
structure Scan where
  depth : Nat
  quote : Option Char
  escaped : Bool
deriving DecidableEq

namespace Scan

/-- The start of a scan. -/
def start : Scan := ⟨0, none, false⟩

/-- The scan behind one more character. -/
def step (s : Scan) (c : Char) : Scan :=
  match s.quote with
  | some mark =>
    if s.escaped then { s with escaped := false }
    else if c = '\\' then { s with escaped := true }
    else if c = mark then { s with quote := none }
    else s
  | none =>
    if c = '"' ∨ c = '\'' then { s with quote := some c }
    else if c = '[' then { s with depth := s.depth + 1 }
    else if c = ']' then { s with depth := s.depth - 1 }
    else s

/-- Whether a comma separates two items here. -/
def isOuter (s : Scan) : Bool :=
  s.quote.isNone && s.depth == 0

end Scan

/-- The pieces of a text between the commas outside all quotes and brackets. -/
def items (s : Scan) : List Char → List (List Char)
  | [] => [[]]
  | c :: text =>
    if c = ',' ∧ s.isOuter then [] :: items s text
    else
      match items (s.step c) text with
      | [] => [[c]]
      | piece :: rest => (c :: piece) :: rest

end Narrative.Source
