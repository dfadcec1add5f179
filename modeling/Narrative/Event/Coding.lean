import Narrative.Event.Basic
import Narrative.Condition.Coding
import Narrative.Operation.Coding

/-!
# Events in JSON

Triggers and the condition of an action are left out when there are none; a weight is one, and
every other part of an event but its names and its text is empty, when it is absent.
-/

namespace Narrative

/-- The document of a list of operations. -/
def operationsToJson (operations : List Operation) : Json :=
  .arr (operations.map Operation.toJson)

namespace Trigger

/-- The record of a trigger. -/
def toJson (t : Trigger) : Json :=
  .obj [("condition", t.condition.toJson), ("weight", .num (.float t.weight))]

/-- The fields of a trigger. -/
def shape : Json.Shape :=
  .ofNames ["condition", "weight"]

/-- The trigger that a document writes. -/
def ofJson? (document : Json) : Option Trigger := do
  match ← document.fields? shape with
  | [some condition, weight] =>
    pure ⟨← Condition.ofJson? condition, ← Json.fieldOr weight 1.0 Json.float?⟩
  | _ => none

end Trigger

namespace Triggers

/-- The record of the triggers that there are. -/
def toJson (t : Triggers) : Json :=
  .obj ((t.hard.toList.map fun trigger => ("hard", trigger.toJson)) ++
    t.soft.toList.map fun trigger => ("soft", trigger.toJson))

/-- The fields of the triggers of an event. -/
def shape : Json.Shape :=
  .record [("hard", Trigger.shape), ("soft", Trigger.shape)]

/-- The triggers that a document writes. -/
def ofJson? (document : Json) : Option Triggers := do
  match ← document.fields? shape with
  | [hard, soft] =>
    pure ⟨← Json.optionalField hard Trigger.ofJson?, ← Json.optionalField soft Trigger.ofJson?⟩
  | _ => Option.none

end Triggers

namespace Action

/-- The record of an action. -/
def toJson (a : Action) : Json :=
  .obj (("operations", operationsToJson a.operations) ::
    a.condition.toList.map fun condition => ("condition", condition.toJson))

/-- The fields of an action. -/
def shape : Json.Shape :=
  .record [("operations", .each Operation.shape), ("condition", .whole)]

/-- The action that a document writes. -/
def ofJson? (document : Json) : Option Action := do
  match ← document.fields? shape with
  | [operations, condition] =>
    pure ⟨← Json.fieldOr operations [] (Json.list? Operation.ofJson?),
      ← Json.optionalField condition Condition.ofJson?⟩
  | _ => none

end Action

namespace Event

/-- The record of an event. -/
def toJson (e : Event) : Json :=
  .obj [("event", .str e.event), ("storyline", .str e.storyline),
    ("description", .str e.description), ("repeatable", .bool e.repeatable),
    ("on_display", operationsToJson e.onDisplay), ("triggers", e.triggers.toJson),
    ("actions", .obj (Entries.mapValues Action.toJson e.actions))]

/-- The fields of an event. -/
def shape : Json.Shape :=
  .record [("event", .whole), ("storyline", .whole), ("description", .whole),
    ("repeatable", .whole), ("on_display", .each Operation.shape), ("triggers", Triggers.shape),
    ("actions", .each Action.shape)]

/-- The event that a document writes. -/
def ofJson? (document : Json) : Option Event := do
  match ← document.fields? shape with
  | [some event, some storyline, some description, repeatable, onDisplay, triggers, actions] =>
    pure
      { event := ← event.text?
        storyline := ← storyline.text?
        description := ← description.text?
        repeatable := ← Json.fieldOr repeatable false Json.bool?
        onDisplay := ← Json.fieldOr onDisplay [] (Json.list? Operation.ofJson?)
        triggers := ← Json.fieldOr triggers Triggers.none Triggers.ofJson?
        actions := ← Json.fieldOr actions [] (Json.entriesOf? Action.ofJson?) }
  | _ => none

end Event

end Narrative
