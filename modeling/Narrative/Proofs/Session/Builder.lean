import Mathlib.Tactic.Common
import Narrative.Session.Builder

/-!
# What a builder makes

A builder makes a session on the story that it finds with the draws that it takes, provided there is
a display.  The story is looked for first, so what is wrong with it comes before a missing display.
-/

namespace Narrative.Builder

variable {files : Files Id} {fresh : Id UInt64} {b : Builder}

/-- A builder finds a story: it is given, or else it is in the file. -/
def Finds (files : Files Id) (b : Builder) (story : Story) : Prop :=
  b.story = some story ∨
    b.story = none ∧ ∃ path text, b.path = some path ∧ (files.read path).run = .ok text ∧
      Story.parse? text = some story

/-- A builder takes draws: they are given, or else they are those of its seed or of a fresh one. -/
def Takes (fresh : Id UInt64) (b : Builder) (draws : Draws) : Prop :=
  b.draws = some draws ∨ b.draws = none ∧ draws = Draws.seeded (b.seed.getD fresh.run)

/-- A story is found as said, and the only error of a session on the way is that none is given. -/
theorem run_findStory :
    (∀ story, (b.findStory files).run = .ok story ↔ b.Finds files story) ∧
      ∀ e, (b.findStory files).run = .error (.session e) ↔
        e = .missingStory ∧ b.story = none ∧ b.path = none := by
  unfold findStory Finds
  cases b.story with
  | some given => simp
  | none =>
    cases b.path with
    | none => simp [eq_comm]
    | some path =>
      rw [Id.run_bind]
      cases hread : (files.read path).run with
      | error cause => simp [hread]
      | ok text =>
        dsimp only
        cases hparse : Story.parse? text with
        | none => simp [hread, hparse]
        | some found => simp [hread, hparse]

theorem takes_iff {draws : Draws} : b.Takes fresh draws ↔ draws = (b.findDraws fresh).run := by
  unfold findDraws Takes
  cases b.draws with
  | some given => simp [eq_comm]
  | none =>
    cases b.seed with
    | some seed => simp
    | none => simp

/-- A session is built exactly when a story is found and there is a display. -/
theorem build_eq_ok_iff {turn : Turn} :
    (b.build files fresh).run = .ok turn ↔ b.display = true ∧
      ∃ story draws, b.Finds files story ∧ b.Takes fresh draws ∧
        turn = Session.build story draws := by
  obtain ⟨hfound, -⟩ := @run_findStory files b
  simp only [← hfound, takes_iff]
  unfold build
  rw [Id.run_bind]
  cases (b.findStory files).run with
  | error e => simp
  | ok story => cases b.display <;> simp [eq_comm]

/-- A story is missing when none is given, and a display when there is a story without one; nothing
else about the session stops a builder. -/
theorem build_eq_error_session_iff {e : SessionError} :
    (b.build files fresh).run = .error (.session e) ↔
      e = .missingStory ∧ b.story = none ∧ b.path = none ∨
        e = .missingDisplay ∧ b.display = false ∧ ∃ story, b.Finds files story := by
  obtain ⟨hfound, hmissing⟩ := @run_findStory files b
  simp only [← hfound, ← hmissing]
  unfold build
  rw [Id.run_bind]
  cases (b.findStory files).run with
  | error cause => simp
  | ok story => cases b.display <;> simp [eq_comm]

/-- With a story, a display and a seed, no file is read and nothing can fail. -/
theorem build_of_given {m : Type → Type} [Monad m] [LawfulMonad m] (files : Files m)
    (fresh : m UInt64) (story : Story) (seed : UInt64) :
    build files fresh { story, display := true, seed } =
      pure (.ok (Session.build story (Draws.seeded seed))) := by
  simp [build, findStory, findDraws]

end Narrative.Builder
