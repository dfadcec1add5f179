import Narrative.Record.Basic
import Narrative.Slug
import Narrative.Text.Blank

/-!
# Event records

The record of an event has the shape of an event, with conditions and operations still as they were
written.
-/

namespace Narrative

/-- A trigger whose condition has not been read yet. -/
structure TriggerRecord where
  condition : Json
  weight : Float
deriving DecidableEq

/-- An action whose operations and condition have not been read yet. -/
structure ActionRecord where
  operations : List String
  condition : Option Json
deriving DecidableEq

/-- A checked event whose statements have not been read yet. -/
structure EventRecord where
  storyline : String
  event : String
  description : String
  repeatable : Bool
  onDisplay : List String
  triggers : List (Gate × TriggerRecord)
  actions : List (String × ActionRecord)
deriving DecidableEq

namespace EventRecord

/-- `storyline/event`. -/
def location (r : EventRecord) : String :=
  r.storyline ++ "/" ++ r.event

/-- A trigger of a gate. -/
def readTrigger (place : String) (gate : Gate) (document : Json) :
    Except RecordError TriggerRecord := do
  let .obj record := document | throw (.missingTriggerCondition gate place)
  match record.lookup "condition" with
  | none | some .null => throw (.missingTriggerCondition gate place)
  | some condition =>
    let weight ← Record.optional record "weight" .number
    pure ⟨condition, (weight.bind Json.float?).getD 1.0⟩

/-- The triggers of an event, in the order of the header. -/
def readTriggers (place : String) :
    Record.Entries → Except RecordError (List (Gate × TriggerRecord))
  | [] => .ok []
  | (key, document) :: rest =>
    match Gate.ofName? key with
    | none => .error (.invalidGate key place)
    | some gate =>
      match readTrigger place gate document with
      | .error e => .error e
      | .ok trigger => (readTriggers place rest).map ((gate, trigger) :: ·)

/-- The action of a name. -/
def readAction (name : String) (document : Json) : Except RecordError ActionRecord := do
  let record ← Record.entriesOrNull document name
  let operations ← Record.optionalTexts record "operations"
  let condition :=
    match record.lookup "condition" with
    | none | some .null => none
    | some condition => some condition
  pure ⟨operations, condition⟩

/-- The slugs of a storyline and an event, both there and well formed. -/
def checkSlugs (storyline event : String) : Except RecordError Unit := do
  if storyline.isEmpty then throw (.missing "storyline slug")
  if !isSlug storyline then throw (.invalidSlug storyline)
  if event.isEmpty then throw (.missing ("event slug: " ++ storyline ++ "/"))
  if !isSlug event then throw (.invalidSlug event)

/-- The record of an event in the header and the text of its file. -/
def read (header : Json) (storyline event description : String) :
    Except RecordError EventRecord := do
  checkSlugs storyline event
  let place := storyline ++ "/" ++ event
  let description := Text.trimmed description
  if description.isEmpty then throw (.missing ("event description: " ++ place))
  let record ← Record.entriesOrNull header place
  let repeatable ← Record.optional record "repeatable" .boolean
  let onDisplay ← Record.optionalTexts record "on_display"
  let triggers ← readTriggers place (← Record.optionalEntries record "triggers")
  let actions ← Record.eachEntry readAction (← Record.optionalEntries record "actions")
  pure
    { storyline, event, description, onDisplay, triggers, actions
      repeatable := (repeatable.bind Json.bool?).getD false }

end EventRecord

end Narrative
