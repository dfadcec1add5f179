import Narrative.Tools.Terminal
import Narrative.Bundle
import Narrative.Json.Writer

/-!
# The compiler

Compiles a story folder into one file, or prints the compiled story.
-/

namespace Narrative.Tools.Compiler

/-- How the compiler is used. -/
def usage : String :=
  "Usage: storylines_compile <story_dir> [output.json] [--pretty]\n" ++
    "                          [--config <file>] [--storylines <folder>]\n"

/-- What is asked for. -/
structure Request where
  output : Option String
  pretty : Bool
  layout : Layout

/-- Whether an argument is an option. -/
def isOption (argument : String) : Bool :=
  (Text.after? ['-', '-'] argument.toList).isSome

/-- The request of the arguments behind the folder, or the argument that is unknown. -/
def readArguments (r : Request) : List String → Except String Request
  | [] => .ok r
  | "--pretty" :: rest => readArguments { r with pretty := true } rest
  | "--config" :: name :: rest =>
    readArguments { r with layout := { r.layout with configFile := name } } rest
  | "--storylines" :: name :: rest =>
    readArguments { r with layout := { r.layout with storylinesFolder := name } } rest
  | argument :: rest =>
    if isOption argument || r.output.isSome then .error argument
    else readArguments { r with output := some argument } rest

/-- How many storylines a compiled story knows. -/
def storylineCount (s : Story) : Nat :=
  match s.defaultState.lookup "storylines" with
  | some (.obj entries) => entries.length
  | _ => 0

/-- The line that sums up a compiled story. -/
def summary (s : Story) : String :=
  "Bundled '" ++ s.title ++ "': " ++ Nat.repr s.events.length ++ " events in " ++
    Nat.repr (storylineCount s) ++ " storylines, " ++ Nat.repr s.resources.length ++ " resources"

variable {m : Type → Type} [Monad m] (t : Terminal m)

/-- Compile the story in a folder. -/
def compile (folder : String) (r : Request) : m Nat := do
  match ← (Bundle.story t.files folder r.layout).run with
  | .error e =>
    t.error e.message
    return trouble
  | .ok story =>
    let text := if r.pretty then story.toJson.pretty else story.toJson.text
    match r.output with
    | none =>
      t.line text
      return success
    | some path =>
      match ← t.storage.write path text with
      | .error e => writeFailed t path e
      | .ok () =>
        t.line (summary story)
        t.line ("Wrote " ++ path)
        return success

/-- The compiler with its arguments. -/
def run (arguments : List String) : m Nat := do
  match arguments with
  | [] =>
    t.print usage
    return success
  | folder :: rest =>
    if asksForHelp folder then
      t.print usage
      return success
    else
      match readArguments ⟨none, false, Layout.standard⟩ rest with
      | .error argument => refuse t argument usage
      | .ok r => compile t folder r

end Narrative.Tools.Compiler
