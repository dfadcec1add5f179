import Narrative.State.Error
import Narrative.Json.Number
import Narrative.Story.Basic
import Narrative.Decimal.Reading

/-!
# The state document

The state of a running story is a JSON object.  A path goes down from its root: a segment is a name
in an object and an index in an array.  `Json.place` is where a path ends, or stops for lack of a
value, `Json.slot?` is the value there with the document around it, and `Json.setAt` writes a value
there; all of them go down by `Json.child?`.
-/

namespace Narrative

/-! ### Paths in documents -/

/-- The index that a segment writes; a plus sign before the digits is allowed. -/
def index? (segment : String) : Option Nat :=
  Decimal.unsigned? segment.toList

namespace Json

/-- The value under one segment. -/
def child? (level : Json) (segment : String) : Option Json :=
  match level with
  | obj entries => entries.lookup segment
  | arr items => (index? segment).bind fun i => items[i]?
  | _ => none

/-- The value at a path. -/
def at? (level : Json) : List String → Option Json
  | [] => some level
  | segment :: rest => (level.child? segment).bind fun next => next.at? rest

/-- Where a path ends: the level of its last segment, or the deepest level there is and the first
segment that is missing in it. -/
structure Place where
  parent : Json
  key : String
  missing : Bool
  /-- Only the last segment is missing, so that a value can be put there. -/
  missingLast : Bool
deriving DecidableEq

/-- The place of the path `key :: rest` below a level. -/
def place (level : Json) (key : String) : List String → Place
  | [] =>
    let gone := (level.child? key).isNone
    ⟨level, key, gone, gone⟩
  | next :: rest =>
    match level.child? key with
    | none => ⟨level, key, true, false⟩
    | some below => below.place next rest

namespace Place

/-- The value at a place. -/
def value? (p : Place) : Option Json :=
  if p.missing then none else p.parent.child? p.key

end Place

/-- Why a value cannot be written at a path. -/
inductive WriteError where
  | missing
  | notAContainer (key : String) (found : Kind)
deriving DecidableEq

/-- A value under one segment of a level: under any name of an object, over an item of an array or
just behind the last one. -/
def setChild (level : Json) (key : String) (value : Json) : Except WriteError Json :=
  match level with
  | obj entries => .ok (obj (Entries.put key value entries))
  | arr items =>
    match index? key with
    | none => .error (.notAContainer key .array)
    | some i =>
      if i < items.length then .ok (arr (items.set i value))
      else if i = items.length then .ok (arr (items ++ [value]))
      else .error (.notAContainer key .array)
  | other => .error (.notAContainer key other.kind)

/-- A value in place of the one that is under a segment. -/
def replaceChild (level : Json) (key : String) (value : Json) : Json :=
  match level with
  | obj entries => obj (Entries.put key value entries)
  | arr items =>
    match index? key with
    | none => arr items
    | some i => arr (items.set i value)
  | other => other

/-- A value in a document, and the document with another value in its place. -/
structure Slot where
  value : Json
  fill : Json → Json

/-- The slot at a path. -/
def slot? (level : Json) : List String → Option Slot
  | [] => some ⟨level, id⟩
  | key :: rest =>
    match level.child? key with
    | none => none
    | some below =>
      (below.slot? rest).map fun slot =>
        ⟨slot.value, fun value => level.replaceChild key (slot.fill value)⟩

/-- A value at the path `key :: rest`, of which every segment but the last must be there. -/
def setAt (value : Json) (level : Json) (key : String) : List String → Except WriteError Json
  | [] => level.setChild key value
  | next :: rest =>
    match level.child? key with
    | none => .error .missing
    | some below => (setAt value below next rest).map (level.replaceChild key)

end Json

/-! ### The document -/

/-- The state document: the entries of an object. -/
structure State where
  entries : List (String × Json)
deriving DecidableEq, Inhabited

namespace State

/-- The document as JSON. -/
def root (s : State) : Json :=
  .obj s.entries

/-- The state that a document is. -/
def ofJson (document : Json) : Except StateError State :=
  match document with
  | .obj entries => .ok ⟨entries⟩
  | other => .error (.notAnObject other.kind)

/-- The value at a list of segments. -/
def get? (s : State) (segments : List String) : Option Json :=
  s.root.at? segments

/-- The place of an access.  When `strict`, a missing segment before the last is an error. -/
def resolvePath (s : State) (access : Access) (strict : Bool) : Except StateError Json.Place :=
  match access.segments with
  | [] => .error .emptyAccess
  | key :: rest =>
    let place := s.root.place key rest
    if strict && place.missing && !place.missingLast then .error (.missingPath access)
    else .ok place

mutual

/-- The value of an operand; `none` when it is undefined.  Undefined items of an array are null. -/
def resolve (s : State) : Operand → Except StateError (Option Json)
  | .access path => (s.resolvePath path false).map Json.Place.value?
  | .null => .ok (some .null)
  | .bool b => .ok (some (.bool b))
  | .number x => .ok ((Number.ofFloat? x).map .num)
  | .text t => .ok (some (.str t))
  | .list items => (s.resolveItems items).map fun values => some (.arr values)

/-- The values of the items of an array. -/
def resolveItems (s : State) : List Operand → Except StateError (List Json)
  | [] => .ok []
  | item :: rest =>
    match s.resolve item with
    | .error e => .error e
    | .ok value => (s.resolveItems rest).map (value.getD .null :: ·)

end

/-- The state with a value at an access, of which every segment but the last must be there. -/
def write (s : State) (access : Access) (value : Json) : Except StateError State :=
  let located : Json.WriteError → StateError
    | .missing => .missingPath access
    | .notAContainer key found => .notAContainer key found
  match access.segments with
  | [] => .error .emptyAccess
  | [key] => .ok ⟨Entries.put key value s.entries⟩
  | key :: next :: rest =>
    match s.entries.lookup key with
    | none => .error (.missingPath access)
    | some below =>
      match Json.setAt value below next rest with
      | .ok below => .ok ⟨Entries.put key below s.entries⟩
      | .error e => .error (located e)

/-- The slot of an access, whose value can be changed in place. -/
def slot? (s : State) (access : Access) : Option Json.Slot :=
  s.root.slot? access.segments

/-- A number under `global`. -/
def globalNumber (s : State) (key : String) : Option Float :=
  (s.get? ["global", key]).bind Json.float?

/-- Whether a value under `global` is true. -/
def globalFlag (s : State) (key : String) : Bool :=
  s.get? ["global", key] = some (.bool true)

/-- The state with a value under `global`, which is made when it is not there. -/
def setGlobal (s : State) (key : String) (value : Json) : Except StateError State :=
  let level := (s.entries.lookup "global").getD (.obj [])
  match level.setChild key value with
  | .ok level => .ok ⟨Entries.put "global" level s.entries⟩
  | .error (.notAContainer key found) => .error (.notAContainer key found)
  | .error .missing => .error (.missingPath ⟨["global", key]⟩)

/-- The current values of the resources. -/
def resources (s : State) : List (String × Json) :=
  match s.get? ["resources"] with
  | some (.obj entries) => entries
  | _ => []

/-- The state in which a story starts: turn zero, each resource at its default, and nothing known
about any storyline. -/
def initial (resources : List (String × Resource)) (storylines : List String) : State :=
  ⟨[("global", .obj [("current_turn", .nat 0)]),
    ("resources", .obj (Entries.mapValues Resource.default resources)),
    ("storylines", .obj (Entries.distinct (storylines.map fun slug => (slug, .obj []))))]⟩

end State

end Narrative
