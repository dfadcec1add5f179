import Narrative.State.Basic
import Narrative.Json.Record
import Narrative.Json.Reader

/-!
# Snapshots

A snapshot holds all that changes while a story is played.
-/

namespace Narrative

/-- A saved game: the state, the viewed events and the event on screen, as slugs. -/
structure Snapshot where
  state : State
  viewed : List String
  current : Option String
deriving DecidableEq

namespace Snapshot

/-- The record of a snapshot. -/
def toJson (s : Snapshot) : Json :=
  .obj [("state", s.state.root), ("viewed_events", .arr (s.viewed.map .str)),
    ("current_event", (s.current.map Json.str).getD .null)]

/-- The fields of a snapshot. -/
def shape : Json.Shape :=
  .ofNames ["state", "viewed_events", "current_event"]

/-- The snapshot that a document writes.  As an array it must be complete. -/
def ofJson? (document : Json) : Option Snapshot := do
  match ← document.fields? shape with
  | [some state, some viewed, current] =>
    if document.kind = .array ∧ current.isNone then none
    else
      pure ⟨⟨← state.normal.entries?⟩, ← viewed.list? Json.text?,
        ← Json.optionalField current Json.text?⟩
  | _ => none

end Snapshot

end Narrative
