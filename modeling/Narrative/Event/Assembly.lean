import Narrative.Record.Event
import Narrative.Source.Condition

/-!
# Assembling events

The statements of an event are read in its own storyline: first those of the triggers, then those
of each action, then the operations that run when it is shown.
-/

namespace Narrative

/-- A statement of an event that cannot be read. -/
structure AssemblyError where
  location : String
  cause : SourceError
deriving DecidableEq

namespace AssemblyError

/-- The text of an error. -/
def message (e : AssemblyError) : String :=
  e.location ++ ": " ++ e.cause.message

end AssemblyError

namespace Event

/-- The triggers of a record, those before them given. -/
def assembleTriggers (storyline : String) (made : Triggers) :
    List (Gate × TriggerRecord) → Except SourceError Triggers
  | [] => .ok made
  | (gate, trigger) :: rest =>
    match Condition.read (some storyline) trigger.condition with
    | .error e => .error e
    | .ok condition =>
      assembleTriggers storyline (made.set ⟨condition, trigger.weight⟩ gate) rest

/-- The action of a record. -/
def assembleAction (storyline : String) (action : ActionRecord) : Except SourceError Action := do
  let operations ← Operation.readAll (some storyline) action.operations
  match action.condition with
  | none => pure ⟨operations, none⟩
  | some condition => pure ⟨operations, some (← Condition.read (some storyline) condition)⟩

/-- The actions of a record, in order. -/
def assembleActions (storyline : String) :
    List (String × ActionRecord) → Except SourceError (List (String × Action))
  | [] => .ok []
  | (name, action) :: rest =>
    match assembleAction storyline action with
    | .error e => .error e
    | .ok action => (assembleActions storyline rest).map ((name, action) :: ·)

/-- The event of a record, with the error that stops it. -/
def assembleParts (r : EventRecord) : Except SourceError Event := do
  let triggers ← assembleTriggers r.storyline Triggers.none r.triggers
  let actions ← assembleActions r.storyline r.actions
  let onDisplay ← Operation.readAll (some r.storyline) r.onDisplay
  pure
    { event := r.event, storyline := r.storyline, description := r.description
      repeatable := r.repeatable, onDisplay, triggers, actions }

/-- The event of a record. -/
def assemble (r : EventRecord) : Except AssemblyError Event :=
  (assembleParts r).mapError fun cause => ⟨r.location, cause⟩

end Event

end Narrative
