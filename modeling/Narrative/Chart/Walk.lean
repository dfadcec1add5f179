import Narrative.Chart.Graph
import Narrative.Session.Basic

/-!
# Walking through a story

A walk plays every action that is offered, each from the same snapshot, down to a depth.  It collects
the chains of events that end where nothing is offered, where no event comes next or where the
depth is reached.  The draws of the lottery go on from branch to branch.
-/

namespace Narrative.Chart

/-- An action that was played. -/
structure Played where
  depth : Nat
  action : String
  slug : String
deriving DecidableEq

/-- The line of an action that was played. -/
def Played.line (p : Played) : String :=
  String.ofList (List.replicate (2 * p.depth) ' ') ++ quoted p.action ++ " on " ++ p.slug

/-- How far a walk has come. -/
structure Walk where
  session : Session
  /-- The actions that were played, the last one first. -/
  played : List Played
  chains : SortedSet Chain
  /-- The error that has ended the walk. -/
  failure : Option SessionError

namespace Walk

/-- A walk that has not started. -/
def start (session : Session) : Walk :=
  ⟨session, [], .empty, none⟩

/-- The walk with one more chain. -/
def collect (w : Walk) (chain : Chain) : Walk :=
  { w with chains := w.chains.insert chain }

/-- The walk ended by an error. -/
def fail (w : Walk) (e : SessionError) : Walk :=
  { w with failure := some e }

/-- Play an action from a snapshot and go on with `deeper` where an event comes next. -/
def play (saved : Snapshot) (chain : Chain) (deeper : Walk → Walk) (p : Played) (w : Walk) : Walk :=
  let restored := w.session.restore saved
  match restored.result with
  | .error e => { w with session := restored.session }.fail e
  | .ok () =>
    let turn := restored.session.respond p.action
    let w := { w with session := turn.session, played := p :: w.played }
    match turn.result with
    | .ok () => deeper w
    | .error .noEventsAvailable => w.collect chain
    | .error e => w.fail e

/-- Walk on from the event on screen, `left` steps deeper at most, behind a chain. -/
def explore : (left depth : Nat) → Chain → Walk → Walk
  | left, depth, chain, w =>
    match w.session.currentEvent? with
    | none => w.collect chain
    | some event =>
      let chain := chain ++ [event.slug]
      match w.session.offered with
      | .error e => w.fail (.state e)
      | .ok [] => w.collect chain
      | .ok actions =>
        match left with
        | 0 => w.collect chain
        | left + 1 =>
          let saved := w.session.snapshot
          actions.foldl (fun w action =>
            if w.failure.isSome then w
            else play saved chain (explore left (depth + 1) chain) ⟨depth, action, event.slug⟩ w) w

/-- Start a story and walk through it. -/
def run (story : Story) (draws : Draws) (limit : Nat) : Walk :=
  let turn := (Session.begin story draws).start
  let w := start turn.session
  match turn.result with
  | .error e => w.fail e
  | .ok () => w.explore limit 0 []

end Walk

end Narrative.Chart
