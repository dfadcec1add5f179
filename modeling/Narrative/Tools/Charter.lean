import Narrative.Tools.Terminal
import Narrative.Chart.Walk
import Narrative.Json.Writer

/-!
# The chart tool

Walks through a compiled story, prints each action it plays, and writes the chains and their graph.
-/

namespace Narrative.Tools.Charter

/-- How the chart tool is used. -/
def usage : String :=
  "Usage: storylines_chart <bundle.json> [--depth <n>] [--seed <n>]\n" ++
    "                        [--raw <chains.json>] [--dot <graph.dot>]\n"

/-- What is asked for. -/
structure Request where
  depth : Nat
  seed : Nat
  raw : Option String
  graph : Option String

/-- The depth of a walk when none is asked for. -/
def standardDepth : Nat := 20

/-- The seed of the lottery when none is asked for. -/
def standardSeed : Nat := 0

/-- The request without arguments. -/
def Request.standard : Request :=
  ⟨standardDepth, standardSeed, none, none⟩

/-- The request of the arguments behind the story, or the argument that is unknown. -/
def readArguments (r : Request) : List String → Except String Request
  | [] => .ok r
  | "--depth" :: text :: rest =>
    readArguments { r with depth := (word? text).getD standardDepth } rest
  | "--seed" :: text :: rest =>
    readArguments { r with seed := (word? text).getD standardSeed } rest
  | "--raw" :: path :: rest => readArguments { r with raw := some path } rest
  | "--dot" :: path :: rest => readArguments { r with graph := some path } rest
  | argument :: _ => .error argument

/-- The chains as a document. -/
def chainsJson (chains : SortedSet Chart.Chain) : Json :=
  .arr (chains.elements.map fun chain => .arr (chain.map .str))

/-- The storylines of a story. -/
def storylinesOf (s : Story) : SortedSet String :=
  SortedSet.ofList (s.events.map Event.storyline)

variable {m : Type → Type} [Monad m] (t : Terminal m)

/-- Write a text to a path, if there is one. -/
def writeTo (path : Option String) (text : String) : m (Option Nat) := do
  match path with
  | none => return none
  | some path =>
    match ← t.storage.write path text with
    | .error e => return some (← writeFailed t path e)
    | .ok () => return none

/-- Write what a walk has found. -/
def report (r : Request) (w : Chart.Walk) : m Nat := do
  t.line ("\n" ++ Nat.repr w.chains.size ++ " distinct chains")
  match ← writeTo t r.raw (chainsJson w.chains).pretty with
  | some code => return code
  | none =>
    let graph := Chart.graph (storylinesOf w.session.story) w.chains
    if r.graph.isNone then t.line graph
    match ← writeTo t r.graph graph with
    | some code => return code
    | none => return success

/-- Chart a story. -/
def chart (path : String) (r : Request) : m Nat := do
  match ← openBundle t path (some (UInt64.ofNat r.seed)) with
  | .error cause => loadFailed t path cause
  | .ok built =>
    let w := Chart.Walk.run built.session.story built.session.draws r.depth
    t.print (String.join (w.played.reverse.map fun p => p.line ++ "\n"))
    match w.failure with
    | some e =>
      t.error e.message
      return trouble
    | none => report t r w

/-- The chart tool with its arguments. -/
def run (arguments : List String) : m Nat := do
  match arguments with
  | [] =>
    t.print usage
    return success
  | path :: rest =>
    if asksForHelp path then
      t.print usage
      return success
    else
      match readArguments Request.standard rest with
      | .error argument => refuse t argument usage
      | .ok r => chart t path r

end Narrative.Tools.Charter
