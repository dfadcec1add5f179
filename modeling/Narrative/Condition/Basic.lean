import Narrative.Operand.Basic
import Narrative.Operator

/-!
# Conditions

A condition compares two operands or joins conditions by a connective.
-/

namespace Narrative

/-- A tree of comparisons. -/
inductive Condition where
  | atom (left : Operand) (operator : Comparison) (right : Operand)
  | group (connective : Connective) (members : List Condition)
deriving Inhabited

namespace Condition

mutual

/-- Whether two conditions are identical. -/
def identical : Condition → Condition → Bool
  | atom l o r, atom l' o' r' => l == l' && o == o' && r == r'
  | group c as, group d bs => c == d && identicalMembers as bs
  | _, _ => false

/-- `identical` member by member. -/
def identicalMembers : List Condition → List Condition → Bool
  | [], [] => true
  | a :: as, b :: bs => identical a b && identicalMembers as bs
  | _, _ => false

end

mutual

theorem identical_iff : (a b : Condition) → (identical a b = true ↔ a = b)
  | .atom _ _ _, b => by cases b <;> simp [identical, and_assoc]
  | .group _ as, b => by cases b <;> simp [identical, identicalMembers_iff as]

theorem identicalMembers_iff :
    (as bs : List Condition) → (identicalMembers as bs = true ↔ as = bs)
  | [], bs => by cases bs <;> simp [identicalMembers]
  | a :: as, bs => by
    cases bs <;> simp [identicalMembers, identical_iff a, identicalMembers_iff as]

end

instance : DecidableEq Condition := fun a b => decidable_of_iff _ (identical_iff a b)

end Condition

end Narrative
