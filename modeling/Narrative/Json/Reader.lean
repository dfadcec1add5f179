import Narrative.Json.Basic
import Narrative.Json.Grammar
import Narrative.Json.Shape

/-!
# Reading JSON

`Json.parse?` reads a whole text strictly by the grammar of JSON and keeps repeated names;
`Json.read?` leaves each name once.  At most 127 containers may stand inside each other, and only
numbers that are floats and strings that are texts are read.  What a shape does not ask for is passed
over and only has to follow the grammar.

Numbers are read by a fixed rule.  The digits before and behind the point are gathered into a
significand for as long as it stays below `2 ^ 64`; the digits that no longer fit count as zeros
before the point and not at all behind it.  A significand with neither point nor exponent is an
integer when its value lies in `[-2 ^ 63, 2 ^ 64)` and is not a negative zero.  Every other number is
the float of the significand, multiplied or divided by one power of ten.
-/

namespace Narrative.Json

/-! ### Numbers -/

/-- Gather digits into a significand below `2 ^ 64`: the significand, how many digits it took, and
how many are left. -/
def gather (significand : Nat) : List Char → Nat × Nat × Nat
  | [] => (significand, 0, 0)
  | d :: ds =>
    let next := 10 * significand + (d.toNat - 48)
    if next < Nat.pow 2 64 then
      let (s, used, left) := gather next ds
      (s, used + 1, left)
    else (significand, 0, ds.length + 1)

/-- The float `x · 10 ^ e`: one multiplication or division where the power is a float, and
divisions by `10 ^ 308` before it where the exponent is too small.  None when it is too large. -/
def scaleFloat : (fuel : Nat) → (x : Float) → (e : Int) → Option Float
  | 0, x, _ => some x
  | fuel + 1, x, e =>
    let power := Float.ofScientific 1 false (min e.natAbs 308)
    if e.natAbs ≤ 308 then
      if 0 ≤ e then
        let y := x * power
        if y.isFinite then some y else none
      else some (x / power)
    else if x == 0.0 then some x
    else if 0 ≤ e then none
    else scaleFloat fuel (x / power) (e + 308)

/-- The largest exponent that is read as a number; larger ones only count as too large. -/
def exponentLimit : Nat := 2147483647

/-- The float of a significand and an exponent behind a sign. -/
def signedFloat (negative : Bool) (significand : Nat) (e : Int) : Option Number :=
  (scaleFloat 4 (Float.ofNat significand) e).map fun x => .float (if negative then -x else x)

/-- The exponent behind its letter: its sign, its digits, and what follows. -/
def exponentPart : List Char → Option (Bool × List Char × List Char)
  | '+' :: text => digitsPart false text
  | '-' :: text => digitsPart true text
  | text => digitsPart false text
where
  digitsPart (negative : Bool) (text : List Char) : Option (Bool × List Char × List Char) :=
    let ds := text.takeWhile Decimal.isDigit
    if ds.isEmpty then none else some (negative, ds, text.dropWhile Decimal.isDigit)

/-- The number of a significand and an exponent when an exponent part may follow. -/
def closeFloat (negative : Bool) (significand : Nat) (e : Int) (text : List Char) :
    Option (Number × List Char) :=
  let plain := (signedFloat negative significand e).map (·, text)
  match text with
  | [] => plain
  | c :: rest =>
    if c = 'e' ∨ c = 'E' then
      match exponentPart rest with
      | none => none
      | some (down, ds, rest) =>
        let n := Decimal.natural 0 ds
        if n ≤ exponentLimit then
          let e := if down then e - n else e + n
          (signedFloat negative significand e).map (·, rest)
        else if significand ≠ 0 ∧ !down then none
        else some (.float (if negative then -0.0 else 0.0), rest)
    else plain

/-- The integer of a significand behind a sign, as a float where it has no integer encoding. -/
def signedInteger (negative : Bool) (significand : Nat) : Number :=
  if !negative then .int significand
  else if significand = 0 ∨ Nat.pow 2 63 < significand then .float (-(Float.ofNat significand))
  else .int (-(significand : Int))

/-- A number behind its sign, and what follows. -/
def readNumber (negative : Bool) (text : List Char) : Option (Number × List Char) :=
  let ds := text.takeWhile Decimal.isDigit
  let rest := text.dropWhile Decimal.isDigit
  if ds.isEmpty then none
  else if ds.head? = some '0' ∧ ds.length ≠ 1 then none
  else
    let (significand, _, left) := gather 0 ds
    match rest with
    | '.' :: rest =>
      let ds := rest.takeWhile Decimal.isDigit
      if ds.isEmpty then none
      else
        let (significand, used, _) := gather significand ds
        closeFloat negative significand ((left : Int) - used) (rest.dropWhile Decimal.isDigit)
    | _ =>
      let floats := closeFloat negative significand left rest
      match rest with
      | [] => if left = 0 then some (signedInteger negative significand, rest) else floats
      | c :: _ =>
        if left = 0 ∧ c ≠ 'e' ∧ c ≠ 'E' then some (signedInteger negative significand, rest)
        else floats

/-! ### Strings -/

/-- The characters up to the closing quote, and what follows it. -/
def readChars : List Char → Option (List Char × List Char)
  | [] => none
  | c :: rest =>
    if c = '"' then some ([], rest)
    else if c = '\\' then
      match rest with
      | [] => none
      | e :: rest =>
        if e = 'u' then
          match rest with
          | a :: b :: c :: d :: rest =>
            match unit? a b c d with
            | none => none
            | some high =>
              if 0xD800 ≤ high ∧ high < 0xDC00 then
                match rest with
                | '\\' :: 'u' :: a :: b :: c :: d :: rest =>
                  match unit? a b c d with
                  | none => none
                  | some low =>
                    if 0xDC00 ≤ low ∧ low < 0xE000 then
                      let code := 0x10000 + (high - 0xD800) * 0x400 + (low - 0xDC00)
                      (readChars rest).map fun parts => (Char.ofNat code :: parts.1, parts.2)
                    else none
                | _ => none
              else if 0xDC00 ≤ high ∧ high < 0xE000 then none
              else (readChars rest).map fun parts => (Char.ofNat high :: parts.1, parts.2)
          | _ => none
        else
          match escaped? e with
          | none => none
          | some x => (readChars rest).map fun parts => (x :: parts.1, parts.2)
    else if c.toNat < 0x20 then none
    else (readChars rest).map fun parts => (c :: parts.1, parts.2)

/-! ### Documents -/

mutual

/-- A document at the start of a text, and what follows; `depth` containers may still open.  The
document holds what the shape asks for. -/
def readValue : (fuel depth : Nat) → Shape → List Char → Option (Json × List Char)
  | 0, _, _, _ => none
  | fuel + 1, depth, shape, text =>
    match skipSpace text with
    | 'n' :: 'u' :: 'l' :: 'l' :: rest => some (null, rest)
    | 't' :: 'r' :: 'u' :: 'e' :: rest => some (bool true, rest)
    | 'f' :: 'a' :: 'l' :: 's' :: 'e' :: rest => some (bool false, rest)
    | '"' :: rest => (readChars rest).map fun parts => (str (String.ofList parts.1), parts.2)
    | '[' :: rest =>
      match depth with
      | 0 => none
      | depth + 1 =>
        match skipSpace rest with
        | ']' :: rest => some (arr [], rest)
        | rest => (readItems fuel depth shape 0 rest).map fun parts => (arr parts.1, parts.2)
    | '{' :: rest =>
      match depth with
      | 0 => none
      | depth + 1 =>
        match skipSpace rest with
        | '}' :: rest => some (obj [], rest)
        | rest => (readEntries fuel depth shape rest).map fun parts => (obj parts.1, parts.2)
    | '-' :: rest => (readNumber true rest).map fun parts => (num parts.1, parts.2)
    | rest => (readNumber false rest).map fun parts => (num parts.1, parts.2)

/-- The items of an array from the one with the given number up to the closing bracket; there is at
least one. -/
def readItems : (fuel depth : Nat) → Shape → (number : Nat) → List Char →
    Option (List Json × List Char)
  | 0, _, _, _, _ => none
  | fuel + 1, depth, shape, number, text =>
    match readValue fuel depth (shape.item number) text with
    | none => none
    | some (item, rest) =>
      match skipSpace rest with
      | ',' :: rest =>
        (readItems fuel depth shape (number + 1) rest).map fun parts => (item :: parts.1, parts.2)
      | ']' :: rest => some ([item], rest)
      | _ => none

/-- The entries of an object up to its closing brace; there is at least one. -/
def readEntries : (fuel depth : Nat) → Shape → List Char →
    Option (List (String × Json) × List Char)
  | 0, _, _, _ => none
  | fuel + 1, depth, shape, text =>
    match skipSpace text with
    | '"' :: rest =>
      match readChars rest with
      | none => none
      | some (name, rest) =>
        match skipSpace rest with
        | ':' :: rest =>
          match readPart fuel depth shape (String.ofList name) rest with
          | none => none
          | some (part, rest) =>
            match skipSpace rest with
            | ',' :: rest =>
              (readEntries fuel depth shape rest).map fun parts => (part ++ parts.1, parts.2)
            | '}' :: rest => some (part, rest)
            | _ => none
        | _ => none
    | _ => none

/-- The entry of a name with the value at the start of a text, and what follows.  A value that is
not asked for is passed over and leaves no entry. -/
def readPart : (fuel depth : Nat) → Shape → (name : String) → List Char →
    Option (List (String × Json) × List Char)
  | 0, _, _, _, _ => none
  | fuel + 1, depth, shape, name, text =>
    match shape.entry? name with
    | none => (passValue text).map fun rest => ([], rest)
    | some shape => (readValue fuel depth shape text).map fun part => ([(name, part.1)], part.2)

end

/-- How many containers may stand inside each other. -/
def depthLimit : Nat := 127

/-- The parts of a shape of the document that a whole text writes, repeated names included. -/
def parse? (shape : Shape) (text : String) : Option Json :=
  let cs := text.toList
  match readValue (3 * cs.length + 3) depthLimit shape cs with
  | some (document, rest) => if (skipSpace rest).isEmpty then some document else none
  | none => none

/-- The document that a whole text writes, each name once. -/
def read? (text : String) : Option Json :=
  (parse? .whole text).map normal

end Narrative.Json
