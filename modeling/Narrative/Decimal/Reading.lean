/-!
# Reading decimals

`Numeral.read?` takes a decimal apart: a sign, digits, a point, an exponent, with at least one digit
before or behind the point.  `Numeral.value` is the float nearest to it, with ties to the even
significand, and an infinity for what is too large.
-/

namespace Narrative.Decimal

/-- Whether a character is an ASCII digit. -/
def isDigit (c : Char) : Bool :=
  '0' ≤ c && c ≤ '9'

/-- The number written by a list of digits, behind the digits of `acc`. -/
def natural (acc : Nat) (ds : List Char) : Nat :=
  ds.foldl (fun n d => 10 * n + (d.toNat - 48)) acc

/-- The number a text of digits writes; the text must not be empty. -/
def natural? (text : List Char) : Option Nat :=
  if text.isEmpty || !text.all isDigit then none else some (natural 0 text)

/-- A natural number that may have a plus sign. -/
def unsigned? : List Char → Option Nat
  | '+' :: text => natural? text
  | text => natural? text

/-- A decimal as it is written: `± coefficient · 10 ^ exponent`. -/
structure Numeral where
  negative : Bool
  coefficient : Nat
  exponent : Int
deriving DecidableEq

namespace Numeral

/-- The exponent behind its letter: an optional sign and at least one digit. -/
def readExponent? : List Char → Option Int
  | '-' :: text => (natural? text).map fun n => -(n : Int)
  | text => (unsigned? text).map Int.ofNat

/-- The rest of a numeral behind the digits before the point. -/
def readTail? (negative : Bool) (before : List Char) (rest : List Char) : Option Numeral :=
  let (after, rest) :=
    match rest with
    | '.' :: text => (text.takeWhile isDigit, text.dropWhile isDigit)
    | _ => ([], rest)
  if before.isEmpty && after.isEmpty then none
  else
    let n := natural 0 (before ++ after)
    match rest with
    | [] => some ⟨negative, n, -(after.length : Int)⟩
    | c :: text =>
      if c = 'e' ∨ c = 'E' then
        (readExponent? text).map fun e => ⟨negative, n, e - (after.length : Int)⟩
      else none

/-- The numeral that a whole text writes. -/
def read? : List Char → Option Numeral
  | '-' :: text => readTail? true (text.takeWhile isDigit) (text.dropWhile isDigit)
  | '+' :: text => readTail? false (text.takeWhile isDigit) (text.dropWhile isDigit)
  | text => readTail? false (text.takeWhile isDigit) (text.dropWhile isDigit)

/-- The float nearest to `coefficient · 10 ^ exponent`.  Exponents that leave the range of floats
are cut off before any power is computed. -/
def magnitude (coefficient : Nat) (exponent : Int) : Float :=
  let size := (Nat.toDigits 10 coefficient).length + exponent
  if coefficient = 0 ∨ size < -400 then 0.0
  else if 400 < size then 1.0 / 0.0
  else Float.ofScientific coefficient (exponent < 0) exponent.natAbs

/-- The float nearest to a numeral. -/
def value (n : Numeral) : Float :=
  let x := magnitude n.coefficient n.exponent
  if n.negative then -x else x

end Numeral

end Narrative.Decimal
