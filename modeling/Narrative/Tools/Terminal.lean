import Narrative.Files.Tree
import Narrative.Session.Builder
import Narrative.Decimal.Reading

/-!
# Terminals

The tools read and write files and print texts.  They do so through a record of operations over a
monad; `Desk` is such a place in memory, with a tree of files and all that was printed.
-/

namespace Narrative

/-- What a tool can do. -/
structure Terminal (m : Type → Type) where
  files : Files m
  storage : Storage m
  /-- Print a text. -/
  print : String → m Unit
  /-- Print a text about an error. -/
  warn : String → m Unit
  /-- A seed for a lottery that nobody has fixed. -/
  seed : m UInt64

namespace Terminal

variable {m : Type → Type} [Monad m] (t : Terminal m)

/-- Print a line. -/
def line (text : String) : m Unit :=
  t.print (text ++ "\n")

/-- Print a line about an error. -/
def error (text : String) : m Unit :=
  t.warn ("ERROR: " ++ text ++ "\n")

end Terminal

/-- A place in memory where a tool runs. -/
structure Desk where
  tree : FileTree
  printed : String
  warned : String

namespace Desk

/-- A desk on which nothing has been printed. -/
def new (tree : FileTree) : Desk :=
  ⟨tree, "", ""⟩

/-- Change the files of a desk. -/
def change (f : FileTree → Except FileError FileTree) : StateM Desk (Except FileError Unit) := do
  match f (← get).tree with
  | .ok tree =>
    modify fun d => { d with tree }
    pure (.ok ())
  | .error e => pure (.error e)

/-- A desk as a terminal. -/
def terminal (seed : UInt64) : Terminal (StateM Desk) where
  files :=
    { read := fun path => do return (← get).tree.read path
      list := fun path => do return (← get).tree.list path
      kind? := fun path => do return (← get).tree.kind? path }
  storage :=
    { write := fun path text => change fun tree => tree.write path text
      makeFolder := fun path => change fun tree => tree.makeFolder path }
  print := fun text => modify fun d => { d with printed := d.printed ++ text }
  warn := fun text => modify fun d => { d with warned := d.warned ++ text }
  seed := pure seed

end Desk

namespace Tools

/-- The exit codes of a tool. -/
def success : Nat := 0

/-- The tool could not do its work. -/
def trouble : Nat := 1

/-- The word or letter that asks for help. -/
def asksForHelp (argument : String) : Bool :=
  argument == "--help" || argument == "-h"

/-- A number below a bound, with an optional plus sign. -/
def number? (bound : Nat) (text : String) : Option Nat :=
  match Decimal.unsigned? text.toList with
  | some n => if n < bound then some n else none
  | none => none

/-- A number of sixty-four bits. -/
def word? (text : String) : Option Nat :=
  number? (Nat.pow 2 64) text

variable {m : Type → Type} [Monad m] (t : Terminal m)

/-- A session on the story in a file, which the tool shows. -/
def openBundle (path : String) (seed : Option UInt64) : m (Except BuildError Turn) :=
  Builder.build t.files t.seed { path, display := true, seed }

/-- Say that a story cannot be loaded. -/
def loadFailed (path : String) (cause : BuildError) : m Nat := do
  t.error ("Failed to load '" ++ path ++ "': " ++ cause.message)
  return trouble

/-- Say that a file cannot be written. -/
def writeFailed (path : String) (cause : FileError) : m Nat := do
  t.error ("Failed to write '" ++ path ++ "': " ++ cause.message)
  return trouble

/-- Say that an argument is unknown, and how the tool is used. -/
def refuse (argument usage : String) : m Nat := do
  t.warn ("Unknown argument: " ++ argument ++ "\n")
  t.print usage
  return trouble

end Tools

end Narrative
