import Narrative.Tools.Terminal
import Narrative.Ron.Writer
import Narrative.Ron.Reader
import Narrative.Text.Blank

/-!
# The player

Plays a compiled story line by line.  A line is a command, the number of an action or its name.
-/

namespace Narrative.Tools.Player

/-- How the player is used. -/
def usage : String :=
  "Usage: storylines_play <bundle.json> [--seed <n>] [--saves <dir>]\n"

/-- The commands of the player. -/
def help : String :=
  "Commands:\n" ++
    "  <number> | <action name>  respond to the current event\n" ++
    "  state                     print the state document\n" ++
    "  next                      skip to the next event\n" ++
    "  save <name>               save a snapshot\n" ++
    "  load <name>               load a snapshot\n" ++
    "  help                      list commands\n" ++
    "  quit                      exit\n"

/-- What is asked for. -/
structure Request where
  seed : Option Nat
  saves : String

/-- The request of the arguments behind the story, or the argument that is unknown. -/
def readArguments (r : Request) : List String → Except String Request
  | [] => .ok r
  | "--seed" :: text :: rest => readArguments { r with seed := word? text } rest
  | "--saves" :: folder :: rest => readArguments { r with saves := folder } rest
  | argument :: _ => .error argument

/-- What a line of the player asks for. -/
inductive Command where
  | quit
  | help
  | state
  | next
  | save (name : String)
  | load (name : String)
  | respond (line : String)
deriving DecidableEq

/-- The first word of a line and what follows it, trimmed. -/
def splitWord (line : List Char) : List Char × List Char :=
  match Text.cut [' '] line with
  | some (word, rest) => (word, Text.trim rest)
  | none => (line, [])

/-- The command of a trimmed line. -/
def Command.read (line : List Char) : Command :=
  let (word, rest) := splitWord line
  let word := String.ofList word
  if ["quit", "exit", "q"].contains word then .quit
  else if ["help", "h", "?"].contains word then .help
  else if word = "state" then .state
  else if word = "next" then .next
  else if word = "save" ∧ ¬ rest.isEmpty then .save (String.ofList rest)
  else if word = "load" ∧ ¬ rest.isEmpty then .load (String.ofList rest)
  else .respond (String.ofList line)

/-- What a line that is no other command chooses. -/
inductive Choice where
  | action (name : String)
  | noSuchNumber (number : Nat)
deriving DecidableEq

/-- The action that a line chooses among those offered: by its number, counted from one, or by its
name. -/
def choose (offered : List String) (line : String) : Choice :=
  match word? line with
  | none => .action line
  | some 0 => .noSuchNumber 0
  | some (n + 1) =>
    match offered[n]? with
    | some name => .action name
    | none => .noSuchNumber (n + 1)

/-! ### What is printed -/

/-- The lines of numbered actions, counted from `number`. -/
def actionLines (number : Nat) : List String → String
  | [] => ""
  | name :: rest =>
    "  " ++ Nat.repr number ++ ". " ++ name ++ "\n" ++ actionLines (number + 1) rest

/-- The text of a resource. -/
def resourceText (values : List (String × Json)) (slug : String) (r : Resource) : String :=
  r.displayName ++ ": " ++ r.render (values.lookup slug)

/-- The text of what a session shows. -/
def shownText (story : Story) : Display → String
  | .event description actions => "\n" ++ description ++ "\n\n" ++ actionLines 1 actions ++ "\n"
  | .resources values =>
    if story.resources.isEmpty then ""
    else
      "[" ++ String.intercalate " | "
        (story.resources.map fun entry => resourceText values entry.1 entry.2) ++ "]\n"

variable {m : Type → Type} [Monad m] (t : Terminal m)

/-- Print all that a turn showed. -/
def printShown (turn : Turn) : m Unit :=
  t.print (String.join (turn.shown.map (shownText turn.session.story)))

/-- Print what came of a turn.  The session goes on unless the story has ended or failed. -/
def report (turn : Turn) : m (Option Session) := do
  printShown t turn
  match turn.result with
  | .ok () => return some turn.session
  | .error .noEventsAvailable =>
    t.line "The End."
    return none
  | .error (.actionNotAvailable name) =>
    t.line (SessionError.actionNotAvailable name).message
    return some turn.session
  | .error e =>
    t.error e.message
    return none

/-! ### Saved games -/

/-- The path of a saved game. -/
def savePath (saves name : String) : String :=
  Path.join saves (name ++ ".ron")

/-- Save a session under a name; the path it was written to, or the text of an error. -/
def save (saves : String) (s : Session) (name : String) : m (Except String String) := do
  match ← t.storage.makeFolder saves with
  | .error e => return .error e.message
  | .ok () =>
    let path := savePath saves name
    match ← t.storage.write path s.snapshot.prettyRon with
    | .error e => return .error e.message
    | .ok () => return .ok path

/-- Go back to a saved game and show it. -/
def load (saves : String) (s : Session) (name : String) : m Session := do
  let path := savePath saves name
  match ← t.files.read path with
  | .error e =>
    t.error (path ++ ": " ++ e.message)
    return s
  | .ok text =>
    match Snapshot.ofRon? text with
    | none =>
      t.error "not a snapshot"
      return s
    | some saved =>
      let turn := s.restore saved
      match turn.result with
      | .error e =>
        t.error e.message
        return turn.session
      | .ok () =>
        let turn := turn.session.redisplay
        printShown t turn
        match turn.result with
        | .error e => t.error e.message
        | .ok () => pure ()
        return turn.session

/-! ### Playing -/

/-- Respond to the event on screen with what a line chooses. -/
def respond (s : Session) (line : String) : m (Option Session) := do
  match s.offered with
  | .error e =>
    t.error (SessionError.state e).message
    return none
  | .ok offered =>
    match choose offered line with
    | .noSuchNumber n =>
      t.line ("No action number " ++ Nat.repr n)
      return some s
    | .action name => report t (s.respond name)

/-- Carry out a command; the session that goes on, if any. -/
def obey (saves : String) (s : Session) : Command → m (Option Session)
  | .quit => return none
  | .help => do
    t.print help
    return some s
  | .state => do
    t.line s.state.root.pretty
    return some s
  | .next => report t s.next
  | .save name => do
    match ← save t saves s name with
    | .ok path => t.line ("Saved " ++ path)
    | .error cause => t.error cause
    return some s
  | .load name => do
    return some (← load t saves s name)
  | .respond line => respond t s line

/-- What the player prints in front of each line. -/
def prompt : String := "> "

/-- Carry out a line; blank ones are passed over. -/
def readLine (saves : String) (s : Session) (line : String) : m (Option Session) :=
  let line := Text.trim line.toList
  if line.isEmpty then pure (some s) else obey t saves s (Command.read line)

/-- Play the given lines, as long as the session goes on. -/
def readLines (saves : String) (s : Session) : List String → m Unit
  | [] => t.print prompt
  | line :: rest => do
    t.print prompt
    match ← readLine t saves s line with
    | none => pure ()
    | some s => readLines saves s rest

/-- A player that waits for lines, or the exit code of one that does not. -/
inductive Opening where
  | closed (code : Nat)
  | playing (saves : String) (session : Session)

/-- Load a story, greet the player and show the first event. -/
def openStory (path : String) (r : Request) : m Opening := do
  match ← openBundle t path (r.seed.map UInt64.ofNat) with
  | .error cause => return .closed (← loadFailed t path cause)
  | .ok built =>
    printShown t built
    t.line built.session.story.title
    t.line built.session.story.description
    t.line "Type 'help' for commands."
    match ← report t built.session.start with
    | none => return .closed success
    | some s => return .playing r.saves s

/-- The player with its arguments, up to the first line. -/
def start (arguments : List String) : m Opening := do
  match arguments with
  | [] =>
    t.print usage
    return .closed success
  | path :: rest =>
    if asksForHelp path then
      t.print usage
      return .closed success
    else
      match readArguments ⟨none, "saves"⟩ rest with
      | .error argument => return .closed (← refuse t argument usage)
      | .ok r => openStory t path r

/-- The player with its arguments and all lines it is given. -/
def run (arguments lines : List String) : m Nat := do
  match ← start t arguments with
  | .closed code => return code
  | .playing saves s =>
    readLines t saves s lines
    return success

end Narrative.Tools.Player
