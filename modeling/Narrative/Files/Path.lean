import Narrative.Text.Search

/-!
# Paths

A path is a text of names with slashes between them.  Paths are joined as texts, so a message shows
them the way they were given, and are taken apart only where a file is looked up.
-/

namespace Narrative.Path

/-- Whether a path starts at the root of all files. -/
def isAbsolute (path : String) : Bool :=
  path.toList.head? == some '/'

/-- Whether a path ends with a slash. -/
def endsInSlash (path : String) : Bool :=
  path.toList.getLast? == some '/'

/-- A path inside a folder; an absolute one stands for itself. -/
def join (folder path : String) : String :=
  if isAbsolute path then path
  else if folder.isEmpty || endsInSlash folder then folder ++ path
  else folder ++ "/" ++ path

/-- The steps of a path: names, `.` for here and `..` for the folder above. -/
def steps (path : String) : List String :=
  ((Text.pieces '/' path.toList).filter fun name => !name.isEmpty).map String.ofList

/-- Whether a path holds the null character, which ends a path for the system. -/
def hasNull (path : String) : Bool :=
  path.toList.contains '\x00'

/-- How many bytes a path may have. -/
def lengthLimit : Nat := 4095

/-- How many bytes a name in a path may have. -/
def nameLimit : Nat := 255

/-- The name of a file without an ending, when it has that ending. -/
def stem? (ending name : String) : Option String :=
  (Text.before? ending.toList name.toList).map String.ofList

/-- Whether a name is that of a hidden file. -/
def isHidden (name : String) : Bool :=
  name.toList.head? == some '.'

end Narrative.Path
