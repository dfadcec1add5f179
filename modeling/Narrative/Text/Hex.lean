/-!
# Digits in base sixteen

Digits are written in lower case and read in either case.
-/

namespace Narrative.Text

/-- The digit of a value below sixteen, in lower case. -/
def hexDigit (n : Nat) : Char :=
  if n < 10 then Char.ofNat (n + 48) else Char.ofNat (n + 87)

/-- A number in base sixteen, without leading zeros. -/
def hex (n : Nat) : List Char :=
  if n < 16 then [hexDigit n] else hex (n / 16) ++ [hexDigit (n % 16)]
termination_by n

/-- The value of a digit, in either case. -/
def hexValue? (c : Char) : Option Nat :=
  if '0' ≤ c ∧ c ≤ '9' then some (c.toNat - 48)
  else if 'a' ≤ c ∧ c ≤ 'f' then some (c.toNat - 87)
  else if 'A' ≤ c ∧ c ≤ 'F' then some (c.toNat - 55)
  else none

/-- One more digit in a base of at most sixteen. -/
def appendDigit? (base n : Nat) (c : Char) : Option Nat :=
  match hexValue? c with
  | some d => if d < base then some (base * n + d) else none
  | none => none

/-- The number that digits write in a base of at most sixteen; that of no digits is zero. -/
def numeral? (base : Nat) (digits : List Char) : Option Nat :=
  digits.foldlM (appendDigit? base) 0

end Narrative.Text
