import Narrative.Operand.Basic
import Narrative.Json.Record

/-!
# Operands in JSON

Literals are themselves.  An access is the record of its kind, `state`, and its segments.  Reading
tries the access first, so an array of the word `state` and a list of strings is an access, and any
other object is refused.
-/

namespace Narrative

namespace Access

/-- The record of an access. -/
def toJson (a : Access) : Json :=
  .obj [("_type", .str "state"), ("data", .arr (a.segments.map .str))]

/-- The fields of an access. -/
def shape : Json.Shape :=
  .ofNames ["_type", "data"]

/-- The access that a record writes. -/
def ofJson? (document : Json) : Option Access := do
  match ← document.fields? shape with
  | [some kind, some data] =>
    if (← kind.word?) = "state" then pure ⟨← data.list? Json.text?⟩ else none
  | _ => none

end Access

namespace Operand

mutual

/-- The document of an operand. -/
def toJson : Operand → Json
  | access path => path.toJson
  | null => .null
  | bool b => .bool b
  | number x => .num (.float x)
  | text s => .str s
  | list items => .arr (itemsToJson items)

/-- `toJson` on each item. -/
def itemsToJson : List Operand → List Json
  | [] => []
  | item :: rest => toJson item :: itemsToJson rest

end

mutual

/-- The operand that a document writes. -/
def ofJson? : Json → Option Operand
  | .null => some null
  | .bool b => some (bool b)
  | .num n => some (number n.toFloat)
  | .str s => some (text s)
  | .obj entries => (Access.ofJson? (.obj entries)).map access
  | .arr items =>
    match Access.ofJson? (.arr items) with
    | some path => some (access path)
    | none => (itemsOfJson? items).map list

/-- `ofJson?` on each item. -/
def itemsOfJson? : List Json → Option (List Operand)
  | [] => some []
  | item :: rest =>
    match ofJson? item with
    | none => none
    | some operand => (itemsOfJson? rest).map (operand :: ·)

end

end Operand

end Narrative
