import Narrative.Session.Snapshot
import Narrative.Condition.Holds
import Narrative.Operation.Apply
import Narrative.Lottery.Basic
import Narrative.SortedSet

/-!
# Sessions

A session is a story that is being played.  Each call is a function from a session to the session it
leaves, whether it succeeded, and what it showed on the way.  A turn looks for an event whose hard
trigger holds, then draws among those whose soft trigger holds; when there is none, it looks once
more with the flag `no_events_available` set.
-/

namespace Narrative

/-- What a session shows to its host. -/
inductive Display where
  | resources (values : List (String × Json))
  | event (description : String) (actions : List String)
deriving DecidableEq

/-- Why a call fails. -/
inductive SessionError where
  | missingStory
  | missingDisplay
  | alreadyStarted
  | actionNotAvailable (name : String)
  | noEventsAvailable
  | unknownEvent (name : String)
  | state (cause : StateError)
deriving DecidableEq

namespace SessionError

/-- The text of an error. -/
def message : SessionError → String
  | missingStory => "story is required"
  | missingDisplay => "callbacks object is required"
  | alreadyStarted => "storyline already started"
  | actionNotAvailable name => "action " ++ name ++ " is not available"
  | noEventsAvailable => "no more events available, no listeners on no_events_available"
  | unknownEvent name => "unknown event: " ++ name
  | state cause => "state error: " ++ cause.message

end SessionError

/-- A story that is being played. -/
structure Session where
  story : Story
  state : State
  /-- The slugs of the events that will not be shown again. -/
  viewed : SortedSet String
  /-- The index of the event on screen. -/
  current : Option Nat
  draws : Draws

/-- What a call leaves: its result, the session, and what was shown, in order. -/
structure Turn where
  result : Except SessionError Unit
  session : Session
  shown : List Display

/-- The name of the turn counter under `global`. -/
def turnKey : String := "current_turn"

/-- The name of the flag that the second search of a turn sets under `global`. -/
def noEventsKey : String := "no_events_available"

namespace Session

/-- A session at the start of a story, with nothing on screen. -/
def begin (story : Story) (draws : Draws) : Session :=
  ⟨story, ⟨story.defaultState⟩, .empty, none, draws⟩

/-- The values of the resources as they are shown. -/
def resourceDisplay (s : Session) : Display :=
  .resources s.state.resources

/-- A new session, which shows its resources at once. -/
def build (story : Story) (draws : Draws) : Turn :=
  let s := begin story draws
  ⟨.ok (), s, [s.resourceDisplay]⟩

/-- A call that fails in a session and shows nothing more. -/
def fail (s : Session) (e : SessionError) (shown : List Display) : Turn :=
  ⟨.error e, s, shown⟩

/-- The event on screen. -/
def currentEvent? (s : Session) : Option Event :=
  s.current.bind fun i => s.story.events[i]?

/-- The number of the turn. -/
def turn (s : Session) : Float :=
  (s.state.globalNumber turnKey).getD 0.0

/-- Whether an event is remembered as viewed. -/
def isViewed (s : Session) (slug : String) : Bool :=
  s.viewed.contains slug

/-! ### Events and actions that are available -/

/-- The indices, counted from `index`, of those of the given events that may be shown through a
gate. -/
def availableFrom (s : Session) (gate : Gate) (index : Nat) :
    List Event → Except StateError (List Nat)
  | [] => .ok []
  | event :: rest =>
    match event.triggers.get gate with
    | none => s.availableFrom gate (index + 1) rest
    | some trigger =>
      if s.isViewed event.slug then s.availableFrom gate (index + 1) rest
      else
        match trigger.condition.holds s.state with
        | .error e => .error e
        | .ok false => s.availableFrom gate (index + 1) rest
        | .ok true => (s.availableFrom gate (index + 1) rest).map (index :: ·)

/-- The indices of the events that may be shown through a gate, in the order of the story. -/
def available (s : Session) (gate : Gate) : Except StateError (List Nat) :=
  s.availableFrom gate 0 s.story.events

/-- The names of those actions of a list whose conditions hold. -/
def offeredOf (s : Session) : List (String × Action) → Except StateError (List String)
  | [] => .ok []
  | (name, action) :: rest =>
    match action.condition with
    | none => (s.offeredOf rest).map (name :: ·)
    | some condition =>
      match condition.holds s.state with
      | .error e => .error e
      | .ok true => (s.offeredOf rest).map (name :: ·)
      | .ok false => s.offeredOf rest

/-- The actions offered to the player. -/
def offered (s : Session) : Except StateError (List String) :=
  match s.currentEvent? with
  | some event => s.offeredOf event.actions
  | none => .ok []

/-- The weight of an event in the lottery. -/
def weight (s : Session) (index : Nat) : Float :=
  ((s.story.events[index]?.bind fun event => event.triggers.soft).map Trigger.weight).getD 0.0

/-- One of the candidates, drawn by weight.  Without candidates there is no draw. -/
def lottery (s : Session) (candidates : List Nat) : Option Nat × Session :=
  if candidates.isEmpty then (none, s)
  else
    let (roll, draws) := s.draws.next
    ((Lottery.pick (candidates.map s.weight) roll).bind fun i => candidates[i]?,
      { s with draws })

/-- The event that comes next in the state as it is. -/
def choose (s : Session) : Except StateError (Option Nat × Session) :=
  match s.available .hard with
  | .error e => .error e
  | .ok (index :: _) => .ok (some index, s)
  | .ok [] =>
    match s.available .soft with
    | .error e => .error e
    | .ok candidates => .ok (s.lottery candidates)

/-! ### Calls -/

/-- Show the event on screen with the actions it offers. -/
def showEvent (s : Session) (event : Event) (shown : List Display) : Turn :=
  match s.offeredOf event.actions with
  | .error e => s.fail (.state e) shown
  | .ok names => ⟨.ok (), s, shown ++ [.event event.description names]⟩

/-- Apply operations and show the resources they leave. -/
def apply (s : Session) (operations : List Operation) : Turn :=
  match s.state.applyAll operations with
  | (state, some e) => { s with state }.fail (.state e) []
  | (state, none) =>
    let s := { s with state }
    ⟨.ok (), s, [s.resourceDisplay]⟩

/-- Put an event on screen: run what it does when it is shown, then show it. -/
def moveTo (s : Session) (index : Nat) : Turn :=
  match s.story.events[index]? with
  | none => s.fail (.unknownEvent (Nat.repr index)) []
  | some event =>
    let applied := { s with current := some index }.apply event.onDisplay
    match applied.result with
    | .error _ => applied
    | .ok () => applied.session.showEvent event applied.shown

/-- The session once the event on screen is left: it is remembered unless it is repeatable. -/
def leave (s : Session) : Session :=
  match s.currentEvent? with
  | some event =>
    if event.repeatable then s else { s with viewed := s.viewed.insert event.slug }
  | none => s

/-- The turn counter moved on by one, as it is written. -/
def nextTurn (s : Session) : Json :=
  ((Number.ofFloat? (s.turn + 1.0)).map Json.num).getD .null

/-- The second search of a turn, with the flag set. -/
def searchAgain (s : Session) : Turn :=
  if s.state.globalFlag noEventsKey then s.fail .noEventsAvailable []
  else
    match s.state.setGlobal noEventsKey (.bool true) with
    | .error e => s.fail (.state e) []
    | .ok state =>
      let s := { s with state }
      match s.choose with
      | .error e => s.fail (.state e) []
      | .ok (some index, s) => s.moveTo index
      | .ok (none, s) => s.fail .noEventsAvailable []

/-- The searches of a turn. -/
def search (s : Session) : Turn :=
  match s.choose with
  | .error e => s.fail (.state e) []
  | .ok (some index, s) => s.moveTo index
  | .ok (none, s) => s.searchAgain

/-- Go on to the next turn and its event. -/
def next (s : Session) : Turn :=
  let s := s.leave
  match s.state.setGlobal turnKey s.nextTurn with
  | .error e => s.fail (.state e) []
  | .ok state => { s with state }.search

/-- Show the first event, unless one is on screen. -/
def start (s : Session) : Turn :=
  if s.current.isSome then s.fail .alreadyStarted [] else s.next

/-- Apply an action of the event on screen and go on. -/
def respond (s : Session) (name : String) : Turn :=
  match s.currentEvent?.bind fun event => event.action? name with
  | none => s.fail (.actionNotAvailable name) []
  | some action =>
    let applied := s.apply action.operations
    match applied.result with
    | .error _ => applied
    | .ok () =>
      let turn := applied.session.next
      { turn with shown := applied.shown ++ turn.shown }

/-- Show the resources and the event on screen once more. -/
def redisplay (s : Session) : Turn :=
  let shown := [s.resourceDisplay]
  match s.currentEvent? with
  | none => ⟨.ok (), s, shown⟩
  | some event => s.showEvent event shown

/-- Replace the state. -/
def setState (s : Session) (state : State) : Turn :=
  let s := { s with state }
  ⟨.ok (), s, [s.resourceDisplay]⟩

/-- A copy of all that changes. -/
def snapshot (s : Session) : Snapshot :=
  ⟨s.state, s.viewed.elements, s.currentEvent?.map Event.slug⟩

/-- Go back to a snapshot.  Nothing is shown. -/
def restore (s : Session) (saved : Snapshot) : Turn :=
  let back (current : Option Nat) : Turn :=
    ⟨.ok (), { s with state := saved.state, viewed := .ofList saved.viewed, current }, []⟩
  match saved.current with
  | none => back none
  | some slug =>
    match s.story.events.findIdx? fun event => event.slug == slug with
    | none => s.fail (.unknownEvent slug) []
    | some index => back (some index)

/-- A call by the host. -/
inductive Call where
  | start
  | next
  | respond (action : String)
  | moveTo (index : Nat)
  | apply (operations : List Operation)
  | redisplay
  | setState (state : State)
  | restore (saved : Snapshot)

/-- The turn that a call makes. -/
def call (s : Session) : Call → Turn
  | .start => s.start
  | .next => s.next
  | .respond action => s.respond action
  | .moveTo index => s.moveTo index
  | .apply operations => s.apply operations
  | .redisplay => s.redisplay
  | .setState state => s.setState state
  | .restore saved => s.restore saved

end Session

end Narrative
