import Narrative.Session.Basic
import Narrative.Files.Basic
import Narrative.Story.Coding

/-!
# Building sessions

A host gives what it has, and a session is built from that.  A story that is given comes before the
path of one, and draws that are given come before a seed; with neither of these two a fresh seed is
taken.  Without a story, or without a display, there is no session.
-/

namespace Narrative

/-- Why a session cannot be built. -/
inductive BuildError where
  | file (cause : FileError)
  /-- The text in the file is not a story. -/
  | notAStory
  | session (cause : SessionError)
deriving DecidableEq

namespace BuildError

/-- The text of an error. -/
def message : BuildError → String
  | file cause => "IO error: " ++ cause.message
  | notAStory => "JSON error: not a story"
  | session cause => cause.message

end BuildError

/-- What a host gives for a session. -/
structure Builder where
  story : Option Story := none
  /-- The path of a story in a file. -/
  path : Option String := none
  /-- Whether there is something to show the story on. -/
  display : Bool := false
  seed : Option UInt64 := none
  draws : Option Draws := none

namespace Builder

variable {m : Type → Type} [Monad m]

/-- The story that is given, or else the one in the file. -/
def findStory (files : Files m) (b : Builder) : m (Except BuildError Story) := do
  match b.story, b.path with
  | some story, _ => return .ok story
  | none, none => return .error (.session .missingStory)
  | none, some path =>
    match ← files.read path with
    | .error e => return .error (.file e)
    | .ok text =>
      match Story.parse? text with
      | none => return .error .notAStory
      | some story => return .ok story

/-- The draws that are given, or else those of the seed, which may be a fresh one. -/
def findDraws (fresh : m UInt64) (b : Builder) : m Draws := do
  match b.draws, b.seed with
  | some draws, _ => return draws
  | none, some seed => return Draws.seeded seed
  | none, none => return Draws.seeded (← fresh)

/-- Build a session from what is given. -/
def build (files : Files m) (fresh : m UInt64) (b : Builder) : m (Except BuildError Turn) := do
  match ← b.findStory files with
  | .error e => return .error e
  | .ok story =>
    if b.display then
      let draws ← b.findDraws fresh
      return .ok (Session.build story draws)
    else return .error (.session .missingDisplay)

end Builder

end Narrative
