import Narrative.Entries

/-!
# JSON documents

A document keeps the order of the entries of its objects and the two encodings of numbers: an
integer stays an integer and a float stays a float.  The reader may build objects that repeat a
name, which the readers of records have to see; `normal` leaves each name once.
-/

namespace Narrative

/-- A number in one of its two encodings. -/
inductive Number where
  | int (value : Int)
  | float (value : Float)
deriving DecidableEq, Inhabited

/-- A JSON document. -/
inductive Json where
  | null
  | bool (value : Bool)
  | num (value : Number)
  | str (value : String)
  | arr (items : List Json)
  | obj (entries : List (String × Json))
deriving Inhabited

/-- The six kinds of documents. -/
inductive Kind where
  | null
  | boolean
  | number
  | string
  | array
  | object
deriving DecidableEq

namespace Kind

/-- The name of a kind in messages. -/
def name : Kind → String
  | null => "null"
  | boolean => "boolean"
  | number => "number"
  | string => "string"
  | array => "array"
  | object => "object"

end Kind

namespace Number

/-- The float nearest to a number. -/
def toFloat : Number → Float
  | int n => Float.ofInt n
  | float x => x

end Number

namespace Json

/-- The kind of a document. -/
def kind : Json → Kind
  | null => .null
  | bool _ => .boolean
  | num _ => .number
  | str _ => .string
  | arr _ => .array
  | obj _ => .object

/-- A document that is a natural number. -/
def nat (n : Nat) : Json :=
  .num (.int n)

/-- The items of an array. -/
def items? : Json → Option (List Json)
  | arr items => some items
  | _ => none

/-- The entries of an object. -/
def entries? : Json → Option (List (String × Json))
  | obj entries => some entries
  | _ => none

/-- The text of a string. -/
def text? : Json → Option String
  | str s => some s
  | _ => none

/-- The value of a boolean. -/
def bool? : Json → Option Bool
  | bool b => some b
  | _ => none

/-- The float nearest to a number. -/
def float? : Json → Option Float
  | num n => some n.toFloat
  | _ => none

/-- The value under a name of an object. -/
def field? (name : String) : Json → Option Json
  | obj entries => entries.lookup name
  | _ => none

mutual

/-- The document with each name once in every object: the last value, in the first place. -/
def normal : Json → Json
  | arr items => arr (normalItems items)
  | obj entries => obj (Entries.distinct (normalEntries entries))
  | null => null
  | bool b => bool b
  | num n => num n
  | str s => str s

/-- `normal` on each item. -/
def normalItems : List Json → List Json
  | [] => []
  | item :: rest => normal item :: normalItems rest

/-- `normal` on each value. -/
def normalEntries : List (String × Json) → List (String × Json)
  | [] => []
  | (name, value) :: rest => (name, normal value) :: normalEntries rest

end

/-! ### Identity -/

mutual

/-- Whether two documents are identical, the order of entries and number encodings included. -/
def identical : Json → Json → Bool
  | null, null => true
  | bool a, bool b => a == b
  | num a, num b => a == b
  | str a, str b => a == b
  | arr as, arr bs => identicalItems as bs
  | obj as, obj bs => identicalEntries as bs
  | _, _ => false

/-- `identical` item by item. -/
def identicalItems : List Json → List Json → Bool
  | [], [] => true
  | a :: as, b :: bs => identical a b && identicalItems as bs
  | _, _ => false

/-- `identical` entry by entry. -/
def identicalEntries : List (String × Json) → List (String × Json) → Bool
  | [], [] => true
  | (k, a) :: as, (l, b) :: bs => k == l && identical a b && identicalEntries as bs
  | _, _ => false

end

mutual

theorem identical_iff : (a b : Json) → (identical a b = true ↔ a = b)
  | .null, b => by cases b <;> simp [identical]
  | .bool _, b => by cases b <;> simp [identical]
  | .num _, b => by cases b <;> simp [identical]
  | .str _, b => by cases b <;> simp [identical]
  | .arr as, b => by cases b <;> simp [identical, identicalItems_iff as]
  | .obj as, b => by cases b <;> simp [identical, identicalEntries_iff as]

theorem identicalItems_iff : (as bs : List Json) → (identicalItems as bs = true ↔ as = bs)
  | [], bs => by cases bs <;> simp [identicalItems]
  | a :: as, bs => by cases bs <;> simp [identicalItems, identical_iff a, identicalItems_iff as]

theorem identicalEntries_iff :
    (as bs : List (String × Json)) → (identicalEntries as bs = true ↔ as = bs)
  | [], bs => by cases bs <;> simp [identicalEntries]
  | (k, a) :: as, [] => by simp [identicalEntries]
  | (k, a) :: as, (l, b) :: bs => by
    simp [identicalEntries, identical_iff a, identicalEntries_iff as]

end

instance : DecidableEq Json := fun a b => decidable_of_iff _ (identical_iff a b)

end Json

end Narrative
