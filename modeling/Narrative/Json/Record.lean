import Narrative.Json.Basic
import Narrative.Json.Shape

/-!
# Records in JSON

A record is written as an object of its fields.  It is read from an object, where unknown names are
skipped and a repeated field is refused, or from an array that gives the fields in order and may
leave some out at the end.
-/

namespace Narrative.Json

/-- The value of a field that stands at most once; the inner `none` when it is absent. -/
def single? (entries : List (String × Json)) (name : String) : Option (Option Json) :=
  match entries.filter fun entry => entry.1 == name with
  | [] => some none
  | [entry] => some (some entry.2)
  | _ => none

/-- The fields of the given names, in their order. -/
def fieldsNamed? (names : List String) : Json → Option (List (Option Json))
  | obj entries => names.mapM (single? entries)
  | arr items =>
    if items.length ≤ names.length then
      some ((items.map some) ++ List.replicate (names.length - items.length) none)
    else none
  | _ => none

/-- The fields of a record of the given shape, in their order. -/
def fields? (shape : Shape) (document : Json) : Option (List (Option Json)) :=
  document.fieldsNamed? shape.names

/-- A field with a decoder, and what it is when it is absent. -/
def fieldOr {α : Type} (field : Option Json) (absent : α) (decode : Json → Option α) : Option α :=
  match field with
  | none => some absent
  | some document => decode document

/-- A field that may also be null, which is the same as absent. -/
def optionalField {α : Type} (field : Option Json) (decode : Json → Option α) :
    Option (Option α) :=
  match field with
  | none => some none
  | some null => some none
  | some document => (decode document).map some

/-- A list of documents with one decoder. -/
def list? {α : Type} (decode : Json → Option α) : Json → Option (List α)
  | arr items => items.mapM decode
  | _ => none

/-- A mapping of documents with one decoder; the last value of a name wins in its first place. -/
def entriesOf? {α : Type} (decode : Json → Option α) : Json → Option (List (String × α))
  | obj entries =>
    (entries.mapM fun entry => (decode entry.2).map fun value => (entry.1, value)).map
      Entries.distinct
  | _ => none

/-- A name from a fixed set: a string, or an object with nothing under that one name. -/
def word? : Json → Option String
  | str s => some s
  | obj [(s, null)] => some s
  | _ => none

/-- `word?`, where an empty object counts as nothing too. -/
def looseWord? : Json → Option String
  | obj [(s, obj [])] => some s
  | document => word? document

end Narrative.Json
