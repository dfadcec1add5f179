import Narrative.Decimal.Reading
import Narrative.Text.Hex

/-!
# The grammar of JSON

What nobody asks for is passed over: `Json.passValue` finds the end of a value at the start of a
text.  The value has to follow the grammar, but it need not stand for anything, so a number may be
too large for a float, a string may hold half of a surrogate pair, and any number of containers may
stand inside each other.
-/

namespace Narrative.Json

/-- The white space between the tokens. -/
def isSpace (c : Char) : Bool :=
  c = ' ' || c = '\n' || c = '\r' || c = '\t'

/-- A text without the white space it starts with. -/
def skipSpace (text : List Char) : List Char :=
  text.dropWhile isSpace

/-! ### Escapes -/

/-- The number of four digits in base sixteen. -/
def unit? (a b c d : Char) : Option Nat := do
  let a ← Text.hexValue? a
  let b ← Text.hexValue? b
  let c ← Text.hexValue? c
  let d ← Text.hexValue? d
  pure (((a * 16 + b) * 16 + c) * 16 + d)

/-- The character behind a backslash that stands for one character. -/
def escaped? (c : Char) : Option Char :=
  if c = '"' ∨ c = '\\' ∨ c = '/' then some c
  else if c = 'b' then some '\x08'
  else if c = 'f' then some '\x0c'
  else if c = 'n' then some '\n'
  else if c = 'r' then some '\r'
  else if c = 't' then some '\t'
  else none

/-! ### Scalars -/

/-- The text behind a string, from behind its first quote on. -/
def passChars : List Char → Option (List Char)
  | [] => none
  | '"' :: rest => some rest
  | '\\' :: 'u' :: a :: b :: c :: d :: rest =>
    if (unit? a b c d).isSome then passChars rest else none
  | '\\' :: c :: rest => if (escaped? c).isSome then passChars rest else none
  | c :: rest => if c.toNat < 0x20 then none else passChars rest

/-- The text behind one or more digits. -/
def passDigits (text : List Char) : Option (List Char) :=
  if (text.takeWhile Decimal.isDigit).isEmpty then none
  else some (text.dropWhile Decimal.isDigit)

/-- The text behind an exponent, if there is one. -/
def passExponent : List Char → Option (List Char)
  | [] => some []
  | c :: rest =>
    if c = 'e' ∨ c = 'E' then
      match rest with
      | '+' :: rest => passDigits rest
      | '-' :: rest => passDigits rest
      | rest => passDigits rest
    else some (c :: rest)

/-- The text behind the part of a number that follows its integer part. -/
def passFraction : List Char → Option (List Char)
  | '.' :: rest => (passDigits rest).bind passExponent
  | rest => passExponent rest

/-- The text behind a number without a sign, which has no leading zero. -/
def passNumber (text : List Char) : Option (List Char) :=
  let digits := text.takeWhile Decimal.isDigit
  if digits.head? = some '0' ∧ digits.length ≠ 1 then none
  else (passDigits text).bind passFraction

/-- The text behind a value that is no container. -/
def passScalar : List Char → Option (List Char)
  | 'n' :: 'u' :: 'l' :: 'l' :: rest => some rest
  | 't' :: 'r' :: 'u' :: 'e' :: rest => some rest
  | 'f' :: 'a' :: 'l' :: 's' :: 'e' :: rest => some rest
  | '"' :: rest => passChars rest
  | '-' :: rest => passNumber rest
  | rest => passNumber rest

/-! ### Containers -/

/-- A container that is open. -/
inductive Container where
  | array
  | object

/-- What comes next inside the open containers. -/
inductive Awaited where
  | value
  | name
  /-- A comma, or the end of the innermost container. -/
  | separator

/-- What comes first in a container, or behind a comma in it. -/
def Container.awaits : Container → Awaited
  | array => .value
  | object => .name

/-- The text behind the outermost of the open containers, the innermost of which comes first. -/
def pass : (fuel : Nat) → Awaited → List Container → List Char → Option (List Char)
  | 0, _, _, _ => none
  | fuel + 1, .value, opened, text =>
    match skipSpace text with
    | '[' :: rest =>
      match skipSpace rest with
      | ']' :: rest => pass fuel .separator opened rest
      | rest => pass fuel .value (.array :: opened) rest
    | '{' :: rest =>
      match skipSpace rest with
      | '}' :: rest => pass fuel .separator opened rest
      | rest => pass fuel .name (.object :: opened) rest
    | rest =>
      match passScalar rest with
      | none => none
      | some rest => pass fuel .separator opened rest
  | fuel + 1, .name, opened, text =>
    match skipSpace text with
    | '"' :: rest =>
      match passChars rest with
      | none => none
      | some rest =>
        match skipSpace rest with
        | ':' :: rest => pass fuel .value opened rest
        | _ => none
    | _ => none
  | _ + 1, .separator, [], text => some text
  | fuel + 1, .separator, container :: opened, text =>
    match container, skipSpace text with
    | container, ',' :: rest => pass fuel container.awaits (container :: opened) rest
    | .array, ']' :: rest => pass fuel .separator opened rest
    | .object, '}' :: rest => pass fuel .separator opened rest
    | _, _ => none

/-- The text behind a value. -/
def passValue (text : List Char) : Option (List Char) :=
  pass (2 * text.length + 2) .value [] text

end Narrative.Json
