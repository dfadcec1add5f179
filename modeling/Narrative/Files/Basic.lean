import Narrative.Files.Path

/-!
# Files

The tools see files through a record of operations over a monad, so that they run on a tree in
memory as well as on a disk.
-/

namespace Narrative

/-- Why a file cannot be read or written. -/
inductive FileError where
  | notFound
  | alreadyExists
  | notAFolder
  | isAFolder
  | nameTooLong
  | nullInName
  | notText
  | other (text : String)
deriving DecidableEq

namespace FileError

/-- The text of an error. -/
def message : FileError → String
  | notFound => "No such file or directory (os error 2)"
  | alreadyExists => "File exists (os error 17)"
  | notAFolder => "Not a directory (os error 20)"
  | isAFolder => "Is a directory (os error 21)"
  | nameTooLong => "File name too long (os error 36)"
  | nullInName => "file name contained an unexpected NUL byte"
  | notText => "stream did not contain valid UTF-8"
  | other text => text

end FileError

/-- What stands at a path. -/
inductive FileKind where
  | file
  | folder
deriving DecidableEq

/-- A way to look at files. -/
structure Files (m : Type → Type) where
  /-- The text of a file. -/
  read : String → m (Except FileError String)
  /-- The names in a folder, in any order. -/
  list : String → m (Except FileError (List String))
  /-- What stands at a path, if anything does. -/
  kind? : String → m (Option FileKind)

/-- A way to change files. -/
structure Storage (m : Type → Type) where
  /-- Write a text into a file, which is made if its folder is there. -/
  write : (path text : String) → m (Except FileError Unit)
  /-- Make a folder and all folders above it; they may be there. -/
  makeFolder : String → m (Except FileError Unit)

end Narrative
