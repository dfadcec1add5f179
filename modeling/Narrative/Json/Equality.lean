import Narrative.Json.Basic

/-!
# Strict equality

Two documents are the same when they are so without any conversion between kinds: numbers by the
floats nearest to them, whatever their encoding, and objects whatever the order of their entries.
An undefined document is the same as an undefined one only.
-/

namespace Narrative.Json

mutual

/-- Whether two documents are the same. -/
def same : Json → Json → Bool
  | null, null => true
  | bool a, bool b => a == b
  | num a, num b => a.toFloat == b.toFloat
  | str a, str b => a == b
  | arr as, arr bs => sameItems as bs
  | obj as, obj bs => as.length == bs.length && sameEntries as bs
  | _, _ => false

/-- `same` item by item. -/
def sameItems : List Json → List Json → Bool
  | [], [] => true
  | a :: as, b :: bs => same a b && sameItems as bs
  | _, _ => false

/-- Whether every entry has the same value under its name among other entries. -/
def sameEntries : List (String × Json) → List (String × Json) → Bool
  | [], _ => true
  | (name, a) :: as, bs =>
    (match bs.lookup name with
      | some b => same a b
      | none => false) && sameEntries as bs

end

/-- `same` for documents that may be undefined. -/
def sameOptional : Option Json → Option Json → Bool
  | none, none => true
  | some a, some b => same a b
  | _, _ => false

/-- The order of two numbers or of two strings; other documents have none. -/
def order? : Option Json → Option Json → Option Ordering
  | some (num a), some (num b) =>
    let x := a.toFloat
    let y := b.toFloat
    if x < y then some .lt else if x == y then some .eq else if y < x then some .gt else none
  | some (str a), some (str b) => some (compare a b)
  | _, _ => none

end Narrative.Json
