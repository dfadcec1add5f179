import Narrative.Event.Basic
import Narrative.Json.Writer
import Narrative.Text.Search

/-!
# Stories

A compiled story is all that the engine needs: its title and description, the resources shown to
the player, its events and the state it starts in.
-/

namespace Narrative

/-- A counter kept in the state and shown to the player. -/
structure Resource where
  description : String
  /-- The text around the value, which stands for the first `%s`. -/
  format : String
  displayName : String
  default : Json
deriving DecidableEq, Inhabited

namespace Resource

/-- The text of a value by itself: strings without quotes, other documents as compact JSON. -/
def valueText : Option Json → String
  | some (.str s) => s
  | some document => document.text
  | none => "undefined"

/-- A value in the format of a resource. -/
def render (r : Resource) (value : Option Json) : String :=
  String.ofList (Text.replaceFirst ['%', 's'] (valueText value).toList r.format.toList)

end Resource

/-- A compiled story. -/
structure Story where
  version : Nat
  title : String
  description : String
  resources : List (String × Resource)
  events : List Event
  defaultState : List (String × Json)
deriving DecidableEq, Inhabited

namespace Story

/-- The first event with the given storyline and name. -/
def find? (s : Story) (storyline event : String) : Option Event :=
  s.events.find? fun e => e.storyline == storyline && e.event == event

end Story

end Narrative
