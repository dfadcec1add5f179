import Narrative.Condition.Basic
import Narrative.State.Basic
import Narrative.Json.Equality

/-!
# When a condition holds

Comparisons never convert between kinds: an order between different kinds does not hold.  The right
side of `IN` and `NOT IN` must be an array.  Members of a group are tested in order, up to the first
that decides it.
-/

namespace Narrative

namespace Comparison

/-- Whether a comparison accepts an order of its sides. -/
def accepts : Comparison → Ordering → Bool
  | greater, o => o.isGT
  | greaterEqual, o => o.isGE
  | less, o => o.isLT
  | lessEqual, o => o.isLE
  | _, _ => false

/-- Whether a comparison holds between two values; `shown` is the right side as it is written. -/
def test (c : Comparison) (left right : Option Json) (shown : String) : Except StateError Bool :=
  match c with
  | equal => .ok (Json.sameOptional left right)
  | unequal => .ok (!Json.sameOptional left right)
  | member | notMember =>
    match right with
    | some (.arr items) =>
      .ok ((items.any fun item => Json.sameOptional (some item) left) == (c == member))
    | other => .error (.notAnArray (.comparison c) shown (other.map Json.kind))
  | _ =>
    match Json.order? left right with
    | some o => .ok (c.accepts o)
    | none => .ok false

end Comparison

namespace Condition

mutual

/-- Whether a condition holds in a state. -/
def holds (s : State) : Condition → Except StateError Bool
  | atom left operator right =>
    match s.resolve left with
    | .error e => .error e
    | .ok l =>
      match s.resolve right with
      | .error e => .error e
      | .ok r => operator.test l r right.shown
  | group connective members => groupHolds s connective members

/-- Whether a group of conditions holds. -/
def groupHolds (s : State) (connective : Connective) : List Condition → Except StateError Bool
  | [] => .ok (connective == .and)
  | member :: rest =>
    match holds s member with
    | .error e => .error e
    | .ok passed =>
      match connective, passed with
      | .and, false => .ok false
      | .or, true => .ok true
      | _, _ => groupHolds s connective rest

end

end Condition

end Narrative
