import Mathlib.Tactic.Common
import Narrative.Proofs.Bundle.Proper
import Narrative.Proofs.Story.Rereading

/-!
# Compiled stories that are read again

The text of a bundled story is always read, and what is read is the story itself unless the source
of the story writes a list that is spelled like an access: such a list comes back as the access.
-/

namespace Narrative

namespace Bundle

/-- A bundled story is read from its text with its operands read again, which leaves it as it is
exactly when no list in it is spelled like an access.  The finite floats of the story have to be
read back from their own texts. -/
theorem parse?_text_of_story {files : Files Id} {root : String} {layout : Layout} {s : Story}
    (h : (story files root layout).run = .ok s) (hdepth : s.toJson.depth ≤ Json.depthLimit)
    (hfloats : ∀ x ∈ s.toJson.floats, x.isFinite = true → Json.ReadsBack x) :
    Story.parse? s.toJson.text = some s.reread ∧
      (Story.parse? s.toJson.text = some s ↔ ∀ operand ∈ s.operands, ¬operand.Misleading) := by
  obtain ⟨hproper, hversion⟩ := proper_story h
  have hread : Story.parse? s.toJson.text = some s.reread :=
    Story.parse?_text hproper hversion (fun x hx => hfloats x hx (hproper.isFinite x hx)) hdepth
  refine ⟨hread, ?_⟩
  rw [hread, Option.some.injEq, Story.reread_eq_self_iff]

/-- The source of a story with one event, whose action writes the list `["state", ["global", "y"]]`.
-/
def misleadingFolder : FileTree :=
  .folder [("story", .folder [
    ("storyline.config", .file (some ("\n".intercalate
      ["---", "version: 1", "story_title: T", "resources: \x7b\x7d", "---", "D"]))),
    ("storylines", .folder [("a", .folder [("e.md", .file (some ("\n".intercalate
      ["---", "triggers:", "  soft:", "    condition: g.n < 3", "    weight: 2.5", "actions:",
        "  Go:", "    operations:", "      - 'g.x = [\"state\", [\"global\", \"y\"]]'", "---",
        "Text"])))])])])]

/-- The list that `misleadingFolder` writes. -/
def misleadingList : Operand :=
  .list [.text "state", .list [.text "global", .text "y"]]

/-- What `misleadingFolder` is bundled into. -/
def misleadingStory : Story :=
  { version := 1, title := "T", description := "D", resources := []
    events :=
      [{ event := "e", storyline := "a", description := "Text", repeatable := false, onDisplay := []
         triggers := ⟨none, some ⟨.atom (.access ⟨["global", "n"]⟩) .less (.number 3), 2.5⟩⟩
         actions := [("Go", ⟨[⟨⟨["global", "x"]⟩, .set, misleadingList⟩], none⟩)] }]
    defaultState :=
      [("global", .obj [("current_turn", .nat 0)]), ("resources", .obj []),
        ("storylines", .obj [("a", .obj [])])] }

theorem story_misleadingFolder :
    (story misleadingFolder.files "story" .standard).run = .ok misleadingStory := by
  show (_ : Except BundleError Story) = _
  decide +kernel

/-- The list of `misleadingFolder` is written, but it is not read again. -/
theorem parse?_text_misleadingFolder :
    (story misleadingFolder.files "story" .standard).run = .ok misleadingStory ∧
      Story.parse? misleadingStory.toJson.text = some misleadingStory.reread ∧
      Story.parse? misleadingStory.toJson.text ≠ some misleadingStory := by
  have hfloats : ∀ x ∈ misleadingStory.toJson.floats, x.isFinite = true → Json.ReadsBack x := by
    decide +kernel
  obtain ⟨hread, hiff⟩ := parse?_text_of_story story_misleadingFolder (by decide +kernel) hfloats
  refine ⟨story_misleadingFolder, hread, fun h => ?_⟩
  have hlist : misleadingList ∈ misleadingStory.operands := by decide +kernel
  exact hiff.1 h misleadingList hlist (Or.inl rfl)

end Bundle

end Narrative
