import Narrative.Session.Basic
import Narrative.Story.Coding

/-!
# Games on screen

A game keeps what a session has shown last, as one view that can be drawn at any time.
-/

namespace Narrative

/-- A resource on screen. -/
structure Shown where
  slug : String
  displayName : String
  value : Json
  text : String
deriving DecidableEq

/-- What is on screen.  The turn is asked for when the view is drawn. -/
structure View where
  description : String
  actions : List String
  resources : List Shown
  ended : Bool
deriving DecidableEq

namespace View

/-- An empty screen. -/
def empty : View :=
  ⟨"", [], [], false⟩

/-- A resource with its value. -/
def showResource (values : List (String × Json)) (slug : String) (r : Resource) : Shown :=
  let value := values.lookup slug
  ⟨slug, r.displayName, value.getD .null, r.render value⟩

/-- The screen after something was shown. -/
def update (v : View) (story : Story) : Display → View
  | .event description actions => { v with description, actions }
  | .resources values =>
    { v with resources := story.resources.map fun entry => showResource values entry.1 entry.2 }

/-- The record of a view at a turn. -/
def toJson (v : View) (turn : Float) : Json :=
  .obj [("description", .str v.description), ("actions", .arr (v.actions.map .str)),
    ("resources", .arr (v.resources.map fun r =>
      .obj [("slug", .str r.slug), ("display_name", .str r.displayName), ("value", r.value),
        ("text", .str r.text)])),
    ("turn", .num (.float turn)), ("ended", .bool v.ended)]

end View

/-- A session with its screen. -/
structure Game where
  session : Session
  view : View

namespace Game

/-- The screen after all that a turn showed. -/
def watch (view : View) (turn : Turn) : View :=
  turn.shown.foldl (fun v shown => v.update turn.session.story shown) view

/-- A new game. -/
def new (story : Story) (draws : Draws) : Game :=
  let turn := Session.build story draws
  ⟨turn.session, watch .empty turn⟩

/-- The game after a turn.  When no event was found the story has ended and offers nothing. -/
def finish (view : View) (turn : Turn) : Except SessionError Unit × Game :=
  let view := watch view turn
  match turn.result with
  | .ok () => (.ok (), ⟨turn.session, view⟩)
  | .error .noEventsAvailable => (.ok (), ⟨turn.session, { view with ended := true, actions := [] }⟩)
  | .error e => (.error e, ⟨turn.session, view⟩)

/-- Show the first event. -/
def start (g : Game) : Except SessionError Unit × Game :=
  finish g.view g.session.start

/-- Answer the event on screen. -/
def respond (g : Game) (action : String) : Except SessionError Unit × Game :=
  finish g.view (g.session.respond action)

/-- Replace the state; the event stays on screen. -/
def setState (g : Game) (state : State) : Game :=
  let turn := g.session.setState state
  ⟨turn.session, watch g.view turn⟩

/-- Go back to a snapshot and show its event. -/
def restore (g : Game) (saved : Snapshot) : Except SessionError Unit × Game :=
  let turn := g.session.restore saved
  match turn.result with
  | .error e => (.error e, { g with session := turn.session })
  | .ok () => finish { g.view with ended := false } turn.session.redisplay

/-- The screen as a document. -/
def toJson (g : Game) : Json :=
  g.view.toJson g.session.turn

end Game

end Narrative
