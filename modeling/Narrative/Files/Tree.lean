import Narrative.Files.Basic
import Narrative.Entries

/-!
# Trees of files

The files below a working folder, in memory.  A path is followed step by step, so what it leads
through must be there; nothing stands above the working folder.
-/

namespace Narrative

/-- A file, with its text when its bytes are one, or a folder with the entries in it. -/
inductive FileTree where
  | file (text : Option String)
  | folder (entries : List (String × FileTree))
deriving Inhabited

namespace FileTree

/-- The folder without entries. -/
def empty : FileTree :=
  folder []

/-- What stands at a list of names. -/
def at? (t : FileTree) : List String → Option FileTree
  | [] => some t
  | name :: rest =>
    match t with
    | file _ => none
    | folder entries =>
      match entries.lookup name with
      | none => none
      | some below => below.at? rest

/-- The tree with something else at a list of names, whose folders must be there. -/
def setAt (new : FileTree) : FileTree → List String → FileTree
  | _, [] => new
  | file text, _ :: _ => file text
  | folder entries, name :: rest =>
    folder (Entries.put name (setAt new ((entries.lookup name).getD empty) rest) entries)

/-- Follow a step from the folder at a list of names. -/
def step (t : FileTree) (place : List String) (name : String) :
    Except FileError (List String) :=
  match t.at? place with
  | none => .error .notFound
  | some (file _) => .error .notAFolder
  | some (folder entries) =>
    if name = "." then .ok place
    else if name = ".." then if place.isEmpty then .error .notFound else .ok place.dropLast
    else if Path.nameLimit < name.utf8ByteSize then .error .nameTooLong
    else if (entries.lookup name).isSome then .ok (place ++ [name])
    else .error .notFound

/-- Follow a list of steps. -/
def follow (t : FileTree) (place : List String) (steps : List String) :
    Except FileError (List String) :=
  steps.foldlM t.step place

/-- The steps of a path that starts in the working folder. -/
def stepsOf (path : String) : Except FileError (List String) :=
  if Path.hasNull path then .error .nullInName
  else if Path.lengthLimit < path.utf8ByteSize then .error .nameTooLong
  else if path.isEmpty || Path.isAbsolute path then .error .notFound
  else .ok (Path.steps path)

/-- What stands at a path; only a folder may have a slash behind it. -/
def find (t : FileTree) (path : String) : Except FileError FileTree := do
  let place ← t.follow [] (← stepsOf path)
  match t.at? place with
  | some (file text) => if Path.endsInSlash path then throw .notAFolder else pure (file text)
  | some (folder entries) => pure (folder entries)
  | none => throw .notFound

/-- The text of the file at a path. -/
def read (t : FileTree) (path : String) : Except FileError String := do
  match ← t.find path with
  | file (some text) => pure text
  | file none => throw .notText
  | folder _ => throw .isAFolder

/-- The names in the folder at a path. -/
def list (t : FileTree) (path : String) : Except FileError (List String) := do
  match ← t.find path with
  | file _ => throw .notAFolder
  | folder entries => pure (entries.map Prod.fst)

/-- What kind of thing stands at a path. -/
def kind? (t : FileTree) (path : String) : Option FileKind :=
  match t.find path with
  | .ok (file _) => some .file
  | .ok (folder _) => some .folder
  | .error _ => none

/-- The place of a file that may be written: its folder is there, and its path does not name a
folder. -/
def target (t : FileTree) (path : String) : Except FileError (List String) := do
  let steps ← stepsOf path
  match steps.getLast? with
  | none => throw .isAFolder
  | some name =>
    let place ← t.follow [] steps.dropLast
    match t.at? place with
    | none => throw .notFound
    | some (file _) => throw .notAFolder
    | some (folder entries) =>
      if name = "." ∨ name = ".." ∨ Path.endsInSlash path then throw .isAFolder
      else if Path.nameLimit < name.utf8ByteSize then throw .nameTooLong
      else
        match entries.lookup name with
        | some (folder _) => throw .isAFolder
        | _ => pure (place ++ [name])

/-- The tree with a text written to a path. -/
def write (t : FileTree) (path text : String) : Except FileError FileTree := do
  pure (setAt (file (some text)) t (← t.target path))

/-- Make the folders that the steps behind a place name. -/
def makeFrom (t : FileTree) (place : List String) : List String → Except FileError FileTree
  | [] => .ok t
  | name :: rest =>
    match t.step place name with
    | .error .notFound =>
      if name = ".." then .error .notFound
      else makeFrom (setAt empty t (place ++ [name])) (place ++ [name]) rest
    | .error e => .error e
    | .ok place =>
      match t.at? place with
      | some (folder _) => makeFrom t place rest
      | _ => .error (if rest.isEmpty then .alreadyExists else .notAFolder)

/-- The tree with a folder at a path, and all folders above it. -/
def makeFolder (t : FileTree) (path : String) : Except FileError FileTree :=
  if path.isEmpty then .ok t else do t.makeFrom [] (← stepsOf path)

/-- A tree as files to look at. -/
def files (t : FileTree) : Files Id where
  read := t.read
  list := t.list
  kind? := t.kind?

mutual

/-- The files of a tree with their paths behind the given one. -/
def textsBelow (path : String) : FileTree → List (String × Option String)
  | file text => [(path, text)]
  | folder entries => textsOf path entries

/-- The files of the entries of a folder. -/
def textsOf (path : String) : List (String × FileTree) → List (String × Option String)
  | [] => []
  | (name, below) :: rest => textsBelow (Path.join path name) below ++ textsOf path rest

end

/-- All files of a tree with their paths. -/
def texts (t : FileTree) : List (String × Option String) :=
  t.textsBelow ""

end FileTree

end Narrative
