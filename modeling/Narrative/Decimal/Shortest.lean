import Narrative.Decimal.Binary

/-!
# The shortest decimal of a float

Among the decimals that read back as a given float, `shortest` takes those with the fewest digits
and of these the nearest one.  A decimal reads back when it lies between the midpoints to the two
neighbouring floats; the midpoints themselves belong to the float exactly when its significand is
even.  All comparisons are between natural numbers.
-/

namespace Narrative.Decimal

/-- The number `coefficient · 10 ^ exponent`. -/
structure Scaled where
  coefficient : Nat
  exponent : Int
deriving DecidableEq

/-- What to do with a float that lies halfway between the two nearest decimals. -/
inductive Tie where
  | up
  | even
deriving DecidableEq

/-- The decimals that read back as a float, all multiplied by one factor. -/
structure Interval where
  low : Nat
  value : Nat
  high : Nat
  /-- One, multiplied by the factor. -/
  one : Nat
  closed : Bool

namespace Interval

/-- The interval of the float `m · 2 ^ q`. -/
def ofFinite (m : Nat) (q : Int) : Interval :=
  let up := Nat.pow 2 q.toNat
  let down := Nat.pow 2 (-q).toNat
  let below := if m = Nat.pow 2 52 ∧ leastExponent < q then 1 else 2
  { low := (4 * m - below) * up, value := 4 * m * up, high := (4 * m + 2) * up,
    one := 4 * down, closed := m % 2 == 0 }

/-- Whether a multiplied number lies in the interval. -/
def holds (i : Interval) (x : Nat) : Bool :=
  if i.closed then i.low ≤ x && x ≤ i.high else i.low < x && x < i.high

/-- The interval with a greater factor. -/
def scale (i : Interval) (factor : Nat) : Interval :=
  { i with low := i.low * factor, value := i.value * factor, high := i.high * factor,
           one := i.one * factor }

/-- The exponent `k` with `10 ^ (k - 1) ≤ value < 10 ^ k`. -/
def magnitude (i : Interval) : Int :=
  if i.one ≤ i.value then (Nat.toDigits 10 (i.value / i.one)).length
  else 1 - ((Nat.toDigits 10 (i.one / i.value)).length : Int)

/-- The best multiple of `10 ^ place` in the interval, if it has one: one of the two nearest. -/
def nearest? (tie : Tie) (i : Interval) (place : Int) : Option Nat :=
  let wide := i.scale (Nat.pow 10 (-place).toNat)
  let unit := i.one * Nat.pow 10 place.toNat
  let c := wide.value / unit
  let below := wide.value - c * unit
  let above := (c + 1) * unit - wide.value
  match wide.holds (c * unit), wide.holds ((c + 1) * unit) with
  | false, false => none
  | true, false => some c
  | false, true => some (c + 1)
  | true, true =>
    if below < above then some c
    else if above < below then some (c + 1)
    else
      match tie with
      | .up => some (c + 1)
      | .even => some (if c % 2 = 0 then c else c + 1)

/-- The search from `place` downwards, `fuel` places at most. -/
def search (tie : Tie) (i : Interval) : (fuel : Nat) → (place : Int) → Scaled
  | 0, place => ⟨0, place⟩
  | fuel + 1, place =>
    match i.nearest? tie place with
    | some c => ⟨c, place⟩
    | none => search tie i fuel (place - 1)

end Interval

namespace Scaled

/-- The same number with no zero at the end of its coefficient, `fuel` zeros at most. -/
def strip : (fuel : Nat) → Scaled → Scaled
  | 0, x => x
  | fuel + 1, x =>
    if x.coefficient ≠ 0 ∧ x.coefficient % 10 = 0 then
      strip fuel ⟨x.coefficient / 10, x.exponent + 1⟩
    else x

end Scaled

/-- The shortest decimal that reads back as `m · 2 ^ q`, for `m` not zero.  Seventeen digits
always suffice. -/
def shortest (tie : Tie) (m : Nat) (q : Int) : Scaled :=
  let i := Interval.ofFinite m q
  (i.search tie 18 (i.magnitude - 1)).strip 18

end Narrative.Decimal
