import Narrative.Event.Basic
import Narrative.Json.Writer

/-!
# Checking records

The headers of story files are JSON documents.  Before any statement in them is read, their fields
are checked for presence and kind; a null header is an empty record.
-/

namespace Narrative

/-- What is wrong with the shape of a record. -/
inductive RecordError where
  | missingKey (key : String)
  | wrongType (key : String) (expected found : Kind)
  | missing (what : String)
  | unsupportedVersion (found : Json)
  | invalidResourceSlug (slug : String)
  | invalidResourceFormat (slug : String)
  | invalidSlug (slug : String)
  | invalidGate (key place : String)
  | missingTriggerCondition (gate : Gate) (place : String)
deriving DecidableEq

/-- The versions of the story format that can be compiled. -/
def supportedVersions : List Nat := [1]

namespace RecordError

/-- The text of an error. -/
def message : RecordError → String
  | missingKey key => "'" ++ key ++ "' doesn't exist"
  | wrongType key expected found =>
    key ++ " should be of type '" ++ expected.name ++ "', not '" ++ found.name ++ "'"
  | missing what => "missing " ++ what
  | unsupportedVersion found =>
    "unsupported version " ++ found.text ++ ". Version should be one of " ++
      ", ".intercalate (supportedVersions.map Nat.repr)
  | invalidResourceSlug slug => "invalid resource slug '" ++ slug ++ "'"
  | invalidResourceFormat slug =>
    "invalid resource format for '" ++ slug ++ "'; must contain a %s"
  | invalidSlug slug => "'" ++ slug ++ "' is not a slug"
  | invalidGate key place =>
    "triggers must be either hard or soft, not '" ++ key ++ "': " ++ place
  | missingTriggerCondition gate place =>
    gate.name ++ " triggers must include a condition: " ++ place

end RecordError

namespace Record

/-- The entries of a record. -/
abbrev Entries := List (String × Json)

/-- A document of an expected kind. -/
def checkKind (document : Json) (key : String) (expected : Kind) : Except RecordError Json :=
  if document.kind = expected then .ok document
  else .error (.wrongType key expected document.kind)

/-- The value of a field of an expected kind. -/
def field (record : Entries) (key : String) (expected : Kind) : Except RecordError Json :=
  match record.lookup key with
  | none => .error (.missingKey key)
  | some document => checkKind document key expected

/-- `field`, naming what is missing in words. -/
def require (record : Entries) (key : String) (expected : Kind) (what : String) :
    Except RecordError Json :=
  match record.lookup key with
  | none => .error (.missing what)
  | some document => checkKind document key expected

/-- The value of a field that may be absent or null. -/
def optional (record : Entries) (key : String) (expected : Kind) :
    Except RecordError (Option Json) :=
  match record.lookup key with
  | none | some .null => .ok none
  | some document => (checkKind document key expected).map some

/-- The entries of an object, under the key that messages name. -/
def entries (document : Json) (key : String) : Except RecordError Entries :=
  match document with
  | .obj entries => .ok entries
  | other => .error (.wrongType key .object other.kind)

/-- `entries`, where null is an empty object. -/
def entriesOrNull (document : Json) (key : String) : Except RecordError Entries :=
  match document with
  | .null => .ok []
  | other => entries other key

/-- The string in a required field. -/
def requireText (record : Entries) (key what : String) : Except RecordError String :=
  (require record key .string what).map fun document => document.text?.getD ""

/-- The strings in a list of documents. -/
def texts (key : String) : List Json → Except RecordError (List String)
  | [] => .ok []
  | .str s :: rest => (texts key rest).map (s :: ·)
  | other :: _ => .error (.wrongType (key ++ " item") .string other.kind)

/-- The strings in a field that may be absent. -/
def optionalTexts (record : Entries) (key : String) : Except RecordError (List String) :=
  match optional record key .array with
  | .error e => .error e
  | .ok (some (.arr items)) => texts key items
  | .ok _ => .ok []

/-- The entries of an object in a field that may be absent. -/
def optionalEntries (record : Entries) (key : String) : Except RecordError Entries :=
  match optional record key .object with
  | .error e => .error e
  | .ok (some (.obj entries)) => .ok entries
  | .ok _ => .ok []

/-- A function on each entry of a record, by name and value; the first error wins. -/
def eachEntry {α : Type} (f : String → Json → Except RecordError α) :
    Entries → Except RecordError (List (String × α))
  | [] => .ok []
  | (name, value) :: rest =>
    match f name value with
    | .error e => .error e
    | .ok made => (eachEntry f rest).map ((name, made) :: ·)

end Record

end Narrative
