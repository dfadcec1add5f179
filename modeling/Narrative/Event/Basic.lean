import Narrative.Condition.Basic
import Narrative.Operation.Basic
import Narrative.Entries

/-!
# Events

An event is one beat of a storyline: a text, operations that run when it is shown, triggers that
say when it may be shown, and the actions it offers, in the order in which they were written.
-/

namespace Narrative

/-- The two gates of an event.  A hard trigger always wins over soft ones, which compete in a
lottery. -/
inductive Gate where
  | hard
  | soft
deriving DecidableEq, Inhabited

namespace Gate

/-- Both gates. -/
def all : List Gate := [hard, soft]

/-- The name of a gate. -/
def name : Gate → String
  | hard => "hard"
  | soft => "soft"

/-- The gate of a name. -/
def ofName? (name : String) : Option Gate :=
  all.find? fun g => g.name == name

end Gate

/-- A condition under which an event may be shown, and its weight in the lottery. -/
structure Trigger where
  condition : Condition
  weight : Float
deriving DecidableEq, Inhabited

/-- At most one trigger for each gate. -/
structure Triggers where
  hard : Option Trigger
  soft : Option Trigger
deriving DecidableEq, Inhabited

namespace Triggers

/-- No trigger at all. -/
def none : Triggers := ⟨.none, .none⟩

/-- The trigger of a gate. -/
def get (t : Triggers) : Gate → Option Trigger
  | .hard => t.hard
  | .soft => t.soft

/-- The triggers with that of one gate replaced. -/
def set (t : Triggers) (trigger : Trigger) : Gate → Triggers
  | .hard => { t with hard := some trigger }
  | .soft => { t with soft := some trigger }

end Triggers

/-- A choice of the player: what it does, and when it is offered. -/
structure Action where
  operations : List Operation
  condition : Option Condition
deriving DecidableEq, Inhabited

/-- One beat of a storyline. -/
structure Event where
  event : String
  storyline : String
  description : String
  repeatable : Bool
  onDisplay : List Operation
  triggers : Triggers
  actions : List (String × Action)
deriving DecidableEq, Inhabited

namespace Event

/-- `storyline/event`, the key under which an event is remembered as viewed. -/
def slug (e : Event) : String :=
  e.storyline ++ "/" ++ e.event

/-- The action of a name. -/
def action? (e : Event) (name : String) : Option Action :=
  e.actions.lookup name

end Event

end Narrative
