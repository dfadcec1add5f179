import Narrative.Operand.Basic
import Narrative.Operator
import Narrative.Json.Basic

/-!
# Errors of the state
-/

namespace Narrative

/-- Why the state cannot be read or changed. -/
inductive StateError where
  | missingPath (access : Access)
  | emptyAccess
  | compoundOnUndefined (operator : Assignment) (target : Access)
  | incompatibleOperands (operator : Assignment) (target : Access) (left right : Kind)
  /-- The kind is missing when the value is undefined. -/
  | notAnArray (operator : Operator) (place : String) (found : Option Kind)
  | nonFiniteResult (operator : Assignment) (target : Access)
  | undefinedOperand (operator : Assignment) (target : Access)
  | notAContainer (key : String) (found : Kind)
  | notAnObject (found : Kind)
deriving DecidableEq

namespace StateError

/-- The name of a kind, or of its absence. -/
def kindName : Option Kind → String
  | some kind => kind.name
  | none => "undefined"

/-- The text of an error. -/
def message : StateError → String
  | missingPath access => "trying to access non-existing path in state: " ++ access.dotted
  | emptyAccess => "state access has no path segments"
  | compoundOnUndefined operator target =>
    "can't apply compound operator on undefined: " ++ target.dotted ++ " " ++ operator.token ++
      " ..."
  | incompatibleOperands operator target left right =>
    "incompatible operands for " ++ operator.token ++ " on " ++ target.dotted ++ ": " ++
      left.name ++ " and " ++ right.name
  | notAnArray operator place found =>
    operator.token ++ " needs an array at " ++ place ++ ", found " ++ kindName found
  | nonFiniteResult operator target =>
    target.dotted ++ " " ++ operator.token ++ " produced a non-finite number"
  | undefinedOperand operator target =>
    "right-hand side of " ++ operator.token ++ " on " ++ target.dotted ++ " is undefined"
  | notAContainer key found =>
    "can't write '" ++ key ++ "' into a " ++ found.name ++ " value"
  | notAnObject found => "state document must be an object, found " ++ found.name

end StateError

end Narrative
