import Narrative.Story.Basic
import Narrative.Event.Coding
import Narrative.Json.Reader

/-!
# Stories in JSON

The text of a compiled story is what the compiler hands to the engine.
-/

namespace Narrative

namespace Resource

/-- The record of a resource. -/
def toJson (r : Resource) : Json :=
  .obj [("description", .str r.description), ("format", .str r.format),
    ("display_name", .str r.displayName), ("default", r.default)]

/-- The fields of a resource. -/
def shape : Json.Shape :=
  .ofNames ["description", "format", "display_name", "default"]

/-- The resource that a document writes. -/
def ofJson? (document : Json) : Option Resource := do
  match ← document.fields? shape with
  | [some description, some format, some displayName, some default] =>
    pure ⟨← description.text?, ← format.text?, ← displayName.text?, default.normal⟩
  | _ => none

end Resource

/-- The version number of a story: an integer of thirty-two bits. -/
def version? : Json → Option Nat
  | .num (.int n) => if 0 ≤ n ∧ n < Nat.pow 2 32 then some n.toNat else none
  | _ => none

namespace Story

/-- The record of a story. -/
def toJson (s : Story) : Json :=
  .obj [("version", .nat s.version), ("story_title", .str s.title),
    ("story_description", .str s.description),
    ("resources", .obj (Entries.mapValues Resource.toJson s.resources)),
    ("events", .arr (s.events.map Event.toJson)), ("default_state", .obj s.defaultState)]

/-- The fields of a story. -/
def shape : Json.Shape :=
  .record [("version", .whole), ("story_title", .whole), ("story_description", .whole),
    ("resources", .each Resource.shape), ("events", .each Event.shape), ("default_state", .whole)]

/-- The story that a document writes. -/
def ofJson? (document : Json) : Option Story := do
  match ← document.fields? shape with
  | [some version, some title, some description, some resources, some events, some state] =>
    pure
      { version := ← version? version
        title := ← title.text?
        description := ← description.text?
        resources := ← resources.entriesOf? Resource.ofJson?
        events := ← events.list? Event.ofJson?
        defaultState := ← state.normal.entries? }
  | _ => none

/-- The story that a text writes. -/
def parse? (text : String) : Option Story :=
  (Json.parse? shape text).bind ofJson?

end Story

end Narrative
