import Narrative.Text.Blank
import Narrative.Text.Search
import Narrative.Yaml.Document

/-!
# Front matter

A document of a story is a text that starts with a YAML header between two fences, which are lines
of three hyphens.  What follows the second fence is the body.
-/

namespace Narrative

/-- A document: its header as JSON, null when it is blank, and its trimmed body. -/
structure FrontMatter where
  header : Json
  body : String
deriving DecidableEq

/-- Why a document cannot be read. -/
inductive FrontMatterError where
  | notFrontMatter (name : String)
  | yaml (name : String)
deriving DecidableEq

namespace FrontMatterError

/-- The text of an error. -/
def message : FrontMatterError → String
  | notFrontMatter name => name ++ " must be a valid FrontMatter file"
  | yaml name => "invalid YAML header in " ++ name

end FrontMatterError

namespace FrontMatter

/-- The byte order mark that a file may start with. -/
def orderMark : Char := '\ufeff'

/-- A text without the one byte order mark that it may start with. -/
def dropOrderMark : List Char → List Char
  | [] => []
  | c :: rest => if c = orderMark then rest else c :: rest

/-- A line of three hyphens, up to white space at its end. -/
def isFence (line : List Char) : Bool :=
  Text.trimEnd line == ['-', '-', '-']

/-- The lines before the first fence and those behind it. -/
def cutAtFence : List (List Char) → Option (List (List Char) × List (List Char))
  | [] => none
  | line :: rest =>
    if isFence line then some ([], rest)
    else (cutAtFence rest).map fun parts => (line :: parts.1, parts.2)

/-- The text of the header and the text behind the second fence. -/
def parts? (content : List Char) : Option (List Char × List Char) :=
  match Text.linesKept (dropOrderMark content) with
  | [] => none
  | first :: rest =>
    if isFence first then
      (cutAtFence rest).map fun parts => (parts.1.flatten, parts.2.flatten)
    else none

/-- The document that a header writes; a blank one is not read at all. -/
def readHeader? (header : List Char) : Option Json :=
  if Text.allBlank header then some .null else Yaml.read? (String.ofList header)

/-- The document in a text.  The name is for messages only. -/
def read (name content : String) : Except FrontMatterError FrontMatter :=
  match parts? content.toList with
  | none => .error (.notFrontMatter name)
  | some (header, body) =>
    match readHeader? header with
    | none => .error (.yaml name)
    | some header => .ok ⟨header, String.ofList (Text.trim body)⟩

end FrontMatter

end Narrative
