/-!
# Floats as a significand and an exponent

A finite float is `± m · 2 ^ q` with natural `m` and integer `q`.  Everything that needs the exact
value of a float (its whole part, its remainder, its decimal digits) is computed on `m` and `q`
with natural numbers.
-/

namespace Narrative.Decimal

/-- What the sixty-four bits of a float say. -/
inductive Binary where
  | nan
  | infinite (negative : Bool)
  | finite (negative : Bool) (significand : Nat) (exponent : Int)
deriving DecidableEq

/-- The exponent of the smallest floats. -/
def leastExponent : Int := -1074

namespace Binary

/-- The sign, significand and exponent in the bits of a float. -/
def ofFloat (x : Float) : Binary :=
  let bits : Nat := x.toBits.toNat
  let negative := bits / Nat.pow 2 63 == 1
  let biased : Nat := bits / Nat.pow 2 52 % Nat.pow 2 11
  let fraction : Nat := bits % Nat.pow 2 52
  if biased = 2047 then
    if fraction = 0 then .infinite negative else .nan
  else if biased = 0 then .finite negative fraction leastExponent
  else .finite negative (fraction + Nat.pow 2 52) ((biased : Int) - 1075)

/-- The float `± m · 2 ^ q`, for `m` below `2 ^ 53` and `q` from `-1074` to `971`. -/
def pack (negative : Bool) (m : Nat) (q : Int) : Float :=
  let shift := min (52 - m.log2) (q - leastExponent).toNat
  let m := m * Nat.pow 2 shift
  let q := q - shift
  let sign := if negative then Nat.pow 2 63 else 0
  if m < Nat.pow 2 52 then Float.ofBits (UInt64.ofNat (sign + m))
  else Float.ofBits (UInt64.ofNat (sign + (q + 1075).toNat * Nat.pow 2 52 + (m - Nat.pow 2 52)))

end Binary

/-- The integer that a float is, when it is one. -/
def whole? (x : Float) : Option Int :=
  match Binary.ofFloat x with
  | .finite negative m q =>
    let sign : Int := if negative then -1 else 1
    if 0 ≤ q then some (sign * (m * Nat.pow 2 q.toNat : Nat))
    else if m % Nat.pow 2 (-q).toNat = 0 then some (sign * (m / Nat.pow 2 (-q).toNat : Nat))
    else none
  | _ => none

/-- The greatest integer not above a float, as a float. -/
def floor (x : Float) : Float :=
  match Binary.ofFloat x with
  | .finite negative m q =>
    if 0 ≤ q then x
    else
      let unit := Nat.pow 2 (-q).toNat
      if negative then -(Float.ofNat ((m + (unit - 1)) / unit)) else Float.ofNat (m / unit)
  | _ => x

/-- The exact remainder of a division that rounds toward zero; it has the sign of `x`. -/
def remainder (x y : Float) : Float :=
  match Binary.ofFloat x, Binary.ofFloat y with
  | .finite negative m q, .finite _ m' q' =>
    if m' = 0 then 0.0 / 0.0
    else
      let low := min q q'
      Binary.pack negative ((m * Nat.pow 2 (q - low).toNat) % (m' * Nat.pow 2 (q' - low).toNat)) low
  | .finite _ _ _, .infinite _ => x
  | _, _ => 0.0 / 0.0

end Narrative.Decimal
