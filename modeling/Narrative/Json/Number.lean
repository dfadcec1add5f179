import Narrative.Json.Basic
import Narrative.Decimal.Binary

/-!
# Results of arithmetic as numbers
-/

namespace Narrative.Number

/-- Whole results below this size are written as integers. -/
def wholeLimit : Int := 9000000000000000

/-- A float as a number: whole ones below the limit become integers, and those that are not finite
have no number. -/
def ofFloat? (x : Float) : Option Number :=
  match Decimal.whole? x with
  | some n =>
    if n.natAbs < wholeLimit.natAbs then some (.int n) else some (.float x)
  | none => if x.isFinite then some (.float x) else none

end Narrative.Number
