import Narrative.Decimal.Shortest

/-!
# Written numbers

Three ways to write a float, all with the shortest digits that read back:
`plain` never uses an exponent and writes whole numbers without a point; `pointed` is `plain` with
a point and a zero behind whole numbers; `scientific` is `pointed` for decimal exponents from `-5`
to `15` and has an exponent with a sign beyond.
-/

namespace Narrative.Decimal

/-- The digits of a natural number. -/
def digits (n : Nat) : List Char :=
  Nat.toDigits 10 n

/-- The digits of an integer behind its sign. -/
def integer (n : Int) : List Char :=
  if n < 0 then '-' :: digits n.natAbs else digits n.natAbs

namespace Scaled

/-- How many digits stand before the decimal point: zero or fewer for numbers below one tenth. -/
def point (x : Scaled) : Int :=
  (digits x.coefficient).length + x.exponent

/-- The positional form, with `ending` behind a whole number. -/
def positional (x : Scaled) (ending : List Char) : List Char :=
  let ds := digits x.coefficient
  let k := x.point
  if k ≤ 0 then '0' :: '.' :: (List.replicate (-k).toNat '0' ++ ds)
  else if ds.length ≤ k.toNat then ds ++ List.replicate (k.toNat - ds.length) '0' ++ ending
  else ds.take k.toNat ++ '.' :: ds.drop k.toNat

/-- The form with one digit before the point and an exponent. -/
def exponential (x : Scaled) : List Char :=
  let e := x.point - 1
  let sign := if e < 0 then '-' else '+'
  let mantissa :=
    match digits x.coefficient with
    | [] => []
    | [d] => [d]
    | d :: ds => d :: '.' :: ds
  mantissa ++ 'e' :: sign :: digits e.natAbs

end Scaled

/-- A finite float behind its sign, zero and its digits being written by two functions. -/
def signed (negative : Bool) (body : List Char) : List Char :=
  if negative then '-' :: body else body

/-- Without an exponent, and without a point in whole numbers. -/
def plain (x : Float) : List Char :=
  match Binary.ofFloat x with
  | .nan => ['N', 'a', 'N']
  | .infinite negative => signed negative ['i', 'n', 'f']
  | .finite negative m q =>
    signed negative (if m = 0 then ['0'] else (shortest .up m q).positional [])

/-- Without an exponent, and with at least one digit behind the point. -/
def pointed (x : Float) : List Char :=
  match Binary.ofFloat x with
  | .finite negative m q =>
    signed negative (if m = 0 then ['0', '.', '0'] else (shortest .up m q).positional ['.', '0'])
  | _ => plain x

/-- With a point or an exponent; `none` when the float is not finite. -/
def scientific? (x : Float) : Option (List Char) :=
  match Binary.ofFloat x with
  | .finite negative m q =>
    let body :=
      if m = 0 then ['0', '.', '0']
      else
        let s := shortest .even m q
        if -5 < s.point ∧ s.point ≤ 16 then s.positional ['.', '0'] else s.exponential
    some (signed negative body)
  | _ => none

end Narrative.Decimal
