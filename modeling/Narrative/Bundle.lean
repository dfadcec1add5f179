import Narrative.Files.Tree
import Narrative.FrontMatter
import Narrative.Record.Config
import Narrative.Event.Assembly
import Narrative.State.Basic
import Narrative.SortedSet

/-!
# Bundles

A story is written as a folder: a configuration file, and a folder with one folder for each
storyline, which holds a file for each event.  Bundling reads them all and compiles them into one
story, or stops at the first error.
-/

namespace Narrative

/-- Why a story folder cannot be compiled. -/
inductive BundleError where
  | unreadable (path : String) (cause : FileError)
  | frontMatter (cause : FrontMatterError)
  | config (cause : RecordError)
  | event (location : String) (cause : RecordError)
  | assembly (cause : AssemblyError)
  | notASlug (name : String)
  | notAFolder (path : String)
deriving DecidableEq

namespace BundleError

/-- The text of an error. -/
def message : BundleError → String
  | unreadable path cause => "IO error on " ++ path ++ ": " ++ cause.message
  | frontMatter cause => "front matter error: " ++ cause.message
  | config cause => "invalid config: " ++ cause.message
  | event location cause => "invalid event " ++ location ++ ": " ++ cause.message
  | assembly cause => "expression error in " ++ cause.message
  | notASlug name => "'" ++ name ++ "' is not a slug"
  | notAFolder path => "'" ++ path ++ "' is not a valid directory"

end BundleError

/-- The names of the parts of a story folder. -/
structure Layout where
  configFile : String
  storylinesFolder : String

/-- The usual names. -/
def Layout.standard : Layout :=
  ⟨"storyline.config", "storylines"⟩

/-- The ending of the files that hold events. -/
def eventEnding : String := ".md"

namespace Event

/-- Whether an event may stand before another one: by storyline, then by name. -/
def inOrder (a b : Event) : Bool :=
  ((compare a.storyline b.storyline).then (compare a.event b.event)).isLE

/-- Events by storyline and name; those that have both in common stay in order. -/
def sort (events : List Event) : List Event :=
  events.mergeSort inOrder

end Event

/-- The story of a configuration with its storylines and events. -/
def Config.story (config : Config) (storylines : List String) (events : List Event) : Story :=
  { version := config.version
    title := config.title
    description := config.description
    resources := config.resources
    events
    defaultState := (State.initial config.resources storylines).entries }

namespace Bundle

variable {m : Type → Type} [Monad m] (files : Files m)

/-- The document in a file. -/
def document (path : String) : ExceptT BundleError m FrontMatter := do
  match ← files.read path with
  | .error e => throw (.unreadable path e)
  | .ok text =>
    match FrontMatter.read path text with
    | .error e => throw (.frontMatter e)
    | .ok document => pure document

/-- The names in a folder of the things of one kind that are not hidden, sorted. -/
def names (folder : String) (kind : FileKind) : ExceptT BundleError m (List String) := do
  if (← files.kind? folder) ≠ some .folder then throw (.notAFolder folder)
  match ← files.list folder with
  | .error e => throw (.unreadable folder e)
  | .ok listed =>
    let kept ← (listed.filter fun name => !Path.isHidden name).filterM fun name => do
      return (← files.kind? (Path.join folder name)) == some kind
    pure (SortedSet.ofList kept).elements

/-- The storylines of a story: all folders in the one for them, which must be slugs. -/
def storylines (root folder : String) : ExceptT BundleError m (List String) := do
  let found ← names files (Path.join root folder) .folder
  match found.find? fun name => !isSlug name with
  | some name => throw (.notASlug name)
  | none => pure found

/-- The names of the events of a storyline: those of its files with the right ending. -/
def eventNames (root folder storyline : String) : ExceptT BundleError m (List String) := do
  if !isSlug storyline then throw (.notASlug storyline)
  let found ← names files (Path.join (Path.join root folder) storyline) .file
  pure (found.filterMap (Path.stem? eventEnding))

/-- The event in a file. -/
def event (root folder storyline name : String) : ExceptT BundleError m Event := do
  let document ← document files
    (Path.join (Path.join (Path.join root folder) storyline) (name ++ eventEnding))
  match EventRecord.read document.header storyline name document.body with
  | .error e => throw (.event (storyline ++ "/" ++ name) e)
  | .ok record =>
    match Event.assemble record with
    | .error e => throw (.assembly e)
    | .ok event => pure event

/-- The events of a storyline. -/
def events (root folder storyline : String) : ExceptT BundleError m (List Event) := do
  (← eventNames files root folder storyline).mapM (event files root folder storyline)

/-- The story in a folder. -/
def story (root : String) (layout : Layout) : ExceptT BundleError m Story := do
  let document ← document files (Path.join root layout.configFile)
  match Config.read document.header document.body with
  | .error e => throw (.config e)
  | .ok config =>
    let storylines ← storylines files root layout.storylinesFolder
    let events ← storylines.mapM (events files root layout.storylinesFolder)
    pure (config.story storylines (Event.sort events.flatten))

end Bundle

end Narrative
