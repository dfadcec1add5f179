import Narrative.Decimal.Layout
import Narrative.Text.Quoted

/-!
# Operands

The operands of conditions and operations are literals and accesses to the state of a story.  An
access is the path from the root of the state to a value, written with points between its
segments.
-/

namespace Narrative

/-- A path into the state document. -/
structure Access where
  segments : List String
deriving DecidableEq, Inhabited

namespace Access

/-- The segments joined by points. -/
def dotted (a : Access) : String :=
  ".".intercalate a.segments

end Access

/-- A literal or an access to the state. -/
inductive Operand where
  | access (path : Access)
  | null
  | bool (value : Bool)
  | number (value : Float)
  | text (value : String)
  | list (items : List Operand)
deriving Inhabited

namespace Operand

/-- The path of an access. -/
def access? : Operand → Option Access
  | access path => some path
  | _ => none

mutual

/-- The operand as it is written in statements. -/
def display : Operand → List Char
  | access path => path.dotted.toList
  | null => ['n', 'u', 'l', 'l']
  | bool true => ['t', 'r', 'u', 'e']
  | bool false => ['f', 'a', 'l', 's', 'e']
  | number x => Decimal.plain x
  | text s => Text.quote s.toList
  | list [] => ['[', ']']
  | list (item :: rest) => '[' :: (display item ++ displayItems rest)

/-- The items behind the first one, and the closing bracket. -/
def displayItems : List Operand → List Char
  | [] => [']']
  | item :: rest => ',' :: ' ' :: (display item ++ displayItems rest)

end

/-- `display` as a string. -/
def shown (operand : Operand) : String :=
  String.ofList operand.display

/-! ### Identity -/

mutual

/-- Whether two operands are identical. -/
def identical : Operand → Operand → Bool
  | access p, access q => p == q
  | null, null => true
  | bool a, bool b => a == b
  | number x, number y => decide (x = y)
  | text s, text t => s == t
  | list as, list bs => identicalItems as bs
  | _, _ => false

/-- `identical` item by item. -/
def identicalItems : List Operand → List Operand → Bool
  | [], [] => true
  | a :: as, b :: bs => identical a b && identicalItems as bs
  | _, _ => false

end

mutual

theorem identical_iff : (a b : Operand) → (identical a b = true ↔ a = b)
  | .access _, b => by cases b <;> simp [identical]
  | .null, b => by cases b <;> simp [identical]
  | .bool _, b => by cases b <;> simp [identical]
  | .number _, b => by cases b <;> simp [identical]
  | .text _, b => by cases b <;> simp [identical]
  | .list as, b => by cases b <;> simp [identical, identicalItems_iff as]

theorem identicalItems_iff : (as bs : List Operand) → (identicalItems as bs = true ↔ as = bs)
  | [], bs => by cases bs <;> simp [identicalItems]
  | a :: as, bs => by cases bs <;> simp [identicalItems, identical_iff a, identicalItems_iff as]

end

instance : DecidableEq Operand := fun a b => decidable_of_iff _ (identical_iff a b)

end Operand

end Narrative
