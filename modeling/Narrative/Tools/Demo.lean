import Narrative.Tools.Terminal
import Narrative.Bundle
import Narrative.Json.Writer

/-!
# The lighthouse

Compiles the story of the lighthouse from its folder and plays twenty rounds of it, always with the
first action that is offered.
-/

namespace Narrative.Tools.Demo

/-- Where the story lies. -/
def folder : String := "demos/lighthouse"

/-- The seed of the lottery. -/
def seed : UInt64 := 1993

/-- How many rounds are played. -/
def rounds : Nat := 20

/-- The exit code of a story that cannot be played. -/
def broken : Nat := 101

/-- The line of a resource. -/
def resourceLine (values : List (String × Json)) (slug : String) (r : Resource) : String :=
  "  [" ++ r.displayName ++ ": " ++ r.render (values.lookup slug) ++ "]\n"

/-- The text of what a session shows. -/
def shownText (story : Story) : Display → String
  | .event description actions =>
    description ++ "\n" ++ String.join (actions.map fun name => "  - " ++ name ++ "\n")
  | .resources values =>
    String.join (story.resources.map fun entry => resourceLine values entry.1 entry.2)

/-- The line of a choice. -/
def choiceLine (s : Session) (name : String) : String :=
  "\n> " ++ name ++ " (turn " ++ String.ofList (Decimal.plain s.turn) ++ ", " ++
    (s.currentEvent?.map Event.slug).getD "" ++ ")\n\n"

variable {m : Type → Type} [Monad m] (t : Terminal m)

/-- Print all that a turn showed. -/
def printShown (turn : Turn) : m Unit :=
  t.print (String.join (turn.shown.map (shownText turn.session.story)))

/-- Play a number of rounds behind a turn; the session at the end, or an error. -/
def play : (left : Nat) → Turn → m (Except String Session)
  | 0, turn => return .ok turn.session
  | left + 1, turn => do
    match turn.result with
    | .error .noEventsAvailable => return .ok turn.session
    | .error e => return .error ("story failed: " ++ e.message)
    | .ok () =>
      let s := turn.session
      match s.offered with
      | .error e => return .error ("Failed to list actions: " ++ (SessionError.state e).message)
      | .ok [] => return .ok s
      | .ok (name :: _) =>
        t.print (choiceLine s name)
        let turn := s.respond name
        printShown t turn
        play left turn

/-- Play a story. -/
def playStory (story : Story) : m Nat := do
  t.line ("=== " ++ story.title ++ " ===")
  t.line (story.description ++ "\n")
  match ← Builder.build t.files t.seed { story, display := true, seed } with
  | .error e =>
    t.warn ("Failed to build a session: " ++ e.message ++ "\n")
    return broken
  | .ok built =>
    printShown t built
    let turn := built.session.start
    printShown t turn
    match ← play t rounds turn with
    | .error cause =>
      t.warn (cause ++ "\n")
      return broken
    | .ok s =>
      t.line "\n--- Final state ---"
      t.line s.state.root.pretty
      return success

/-- The demo. -/
def run : m Nat := do
  match ← (Bundle.story t.files folder Layout.standard).run with
  | .error e =>
    t.warn ("Failed to bundle the lighthouse story: " ++ e.message ++ "\n")
    return broken
  | .ok story => playStory t story

end Narrative.Tools.Demo
