import Narrative.Tools.Compiler
import Narrative.Tools.Charter
import Narrative.Tools.Player
import Narrative.Tools.Demo

/-!
# The command line

One program with the four tools, each named by the first argument, on the files of the disk.
-/

namespace Narrative.Disk

/-- The number of the error that a folder is no file. -/
def folderCode : UInt32 := 21

/-- The number of the error that a name is too long. -/
def longNameCode : UInt32 := 36

/-- Whether an error has the given number; its sign depends on the call. -/
def hasCode (number code : UInt32) : Bool :=
  code == number || code == -number

/-- What an error of the disk means. -/
def cause : IO.Error → FileError
  | .noFileOrDirectory _ _ _ => .notFound
  | .alreadyExists _ _ _ => .alreadyExists
  | .inappropriateType _ code _ => if hasCode folderCode code then .isAFolder else .notAFolder
  | .invalidArgument (some path) code text =>
    if Path.hasNull path then .nullInName
    else if hasCode longNameCode code then .nameTooLong
    else .other text
  | .userError _ => .notText
  | e => .other (toString e)

/-- An action on the disk, with its error as a value. -/
def attempt {α : Type} (action : IO α) : IO (Except FileError α) := do
  match ← action.toBaseIO with
  | .ok a => return .ok a
  | .error e => return .error (cause e)

/-- The files of the disk. -/
def files : Files IO where
  read := fun path => attempt (IO.FS.readFile path)
  list := fun path => attempt do
    let entries ← ((← IO.currentDir) / path).readDir
    return entries.toList.map fun entry => entry.fileName
  kind? := fun path => do
    let place := (← IO.currentDir) / path
    if ← place.isDir then return some .folder
    else if ← place.pathExists then return some .file
    else return none

/-- Changes to the files of the disk. -/
def storage : Storage IO where
  write := fun path text => attempt (IO.FS.writeFile path text)
  makeFolder := fun path => attempt (if path.isEmpty then pure () else IO.FS.createDirAll path)

/-- Print a text at once. -/
def put (stream : IO.FS.Stream) (text : String) : IO Unit := do
  stream.putStr text
  stream.flush

/-- The terminal of the process. -/
def terminal : Terminal IO where
  files := files
  storage := storage
  print := fun text => do put (← IO.getStdout) text
  warn := fun text => do put (← IO.getStderr) text
  seed := do return UInt64.ofNat (← IO.rand 0 (Nat.pow 2 64 - 1))

/-- Play the lines of the standard input until they or the story end. -/
partial def playLines (saves : String) (s : Session) : IO Unit := do
  terminal.print Tools.Player.prompt
  let line ← (← IO.getStdin).getLine
  if line.isEmpty then return
  match ← Tools.Player.readLine terminal saves s line with
  | none => return
  | some s => playLines saves s

/-- The player on the terminal of the process. -/
def play (arguments : List String) : IO Nat := do
  match ← Tools.Player.start terminal arguments with
  | .closed code => return code
  | .playing saves s =>
    playLines saves s
    return Tools.success

/-- The tool that the first argument names. -/
def run : List String → IO Nat
  | "compile" :: rest => Tools.Compiler.run terminal rest
  | "play" :: rest => play rest
  | "chart" :: rest => Tools.Charter.run terminal rest
  | ["lighthouse"] => Tools.Demo.run terminal
  | _ => do
    terminal.warn "Usage: narrative compile|play|chart|lighthouse ...\n"
    return Tools.trouble

end Narrative.Disk

/-- Run the tool that the arguments ask for. -/
def main (arguments : List String) : IO UInt32 := do
  return UInt32.ofNat (← Narrative.Disk.run arguments)
