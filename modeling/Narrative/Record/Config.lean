import Narrative.Record.Basic
import Narrative.Story.Basic
import Narrative.Slug
import Narrative.Text.Blank

/-!
# The configuration of a story

The configuration file gives the version, the title and the resources of a story.  Its body is the
description of the story; when it is blank, the header gives the description.
-/

namespace Narrative

/-- The checked configuration of a story. -/
structure Config where
  version : Nat
  title : String
  description : String
  resources : List (String × Resource)
deriving DecidableEq

namespace Config

/-- The version in a header. -/
def readVersion (record : Record.Entries) : Except RecordError Nat :=
  match Record.require record "version" .number "version number" with
  | .error e => .error e
  | .ok found =>
    match found with
    | .num (.int n) =>
      if 0 ≤ n ∧ supportedVersions.contains n.toNat then .ok n.toNat
      else .error (.unsupportedVersion found)
    | _ => .error (.unsupportedVersion found)

/-- The resource that a definition under a name describes. -/
def readResource (slug : String) (definition : Json) : Except RecordError Resource := do
  if !isSlug slug then throw (.invalidResourceSlug slug)
  let record ← Record.entriesOrNull definition slug
  let description ← Record.requireText record "description" ("resource description: " ++ slug)
  let format ← Record.requireText record "format" ("resource format: " ++ slug)
  if !Text.occurs ['%', 's'] format.toList then throw (.invalidResourceFormat slug)
  let displayName ← Record.requireText record "display_name" ("resource display_name: " ++ slug)
  match record.lookup "default" with
  | none => throw (.missing ("resource default value: " ++ slug))
  | some default => pure ⟨description, format, displayName, default⟩

/-- The configuration in a header and a body. -/
def read (header : Json) (body : String) : Except RecordError Config := do
  let record ← Record.entriesOrNull header "config"
  let version ← readVersion record
  let title ← Record.requireText record "story_title" "story title"
  let body := Text.trimmed body
  let description ←
    if body.isEmpty then Record.requireText record "story_description" "story description"
    else pure body
  let resources ← Record.require record "resources" .object "resources definition"
  let resources ← Record.eachEntry readResource (← Record.entries resources "resources")
  pure ⟨version, title, description, resources⟩

end Config

end Narrative
