import Narrative.Operand.Basic
import Narrative.Operator

/-!
# Operations

An operation changes the value at one path of the state.
-/

namespace Narrative

/-- `target operator operand`, such as `r.gold -= 1`. -/
structure Operation where
  target : Access
  operator : Assignment
  operand : Operand
deriving DecidableEq, Inhabited

end Narrative
