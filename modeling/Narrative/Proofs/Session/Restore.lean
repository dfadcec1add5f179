import Mathlib.Tactic.Common
import Mathlib.Data.List.Nodup
import Narrative.Proofs.SortedSet
import Narrative.Proofs.Session.Alike

/-!
# Snapshots are faithful

A snapshot names the event on screen and lists the viewed events, where the session keeps an index
and a set.  With different slugs for different events nothing is lost: a session that goes back to a
snapshot is the one in which it was taken, but for the draws behind it, and goes on in the same way.
-/

namespace Narrative.Session

/-! ### Going back -/

theorem findIdx_slug {events : List Event} (hslugs : (events.map Event.slug).Nodup) {index : Nat}
    (h : index < events.length) :
    events.findIdx? (fun event => event.slug == events[index].slug) = some index := by
  refine List.findIdx?_eq_some_iff_getElem.2 ⟨h, beq_self_eq_true _, fun other hother hslug => ?_⟩
  have hevent : events[other] = events[index] := List.inj_on_of_nodup_map hslugs
    (List.getElem_mem _) (List.getElem_mem _) (beq_iff_eq.1 hslug)
  have hindex : other = index := (List.Nodup.getElem_inj_iff (List.Nodup.of_map _ hslugs)).1 hevent
  omega

/-- A session of the same story goes back to a snapshot of another one by taking over all but its
draws. -/
theorem restore_snapshot {s t : Session} (hslugs : (s.story.events.map Event.slug).Nodup)
    (hplaced : s.Placed) (hstory : t.story = s.story) :
    t.restore s.snapshot = ⟨.ok (), { s with draws := t.draws }, []⟩ := by
  have hviewed : SortedSet.ofList s.snapshot.viewed = s.viewed := SortedSet.ofList_elements s.viewed
  unfold restore
  dsimp only
  cases hcurrent : s.current with
  | none =>
    have hsaved : s.snapshot.current = none := by
      rw [snapshot, currentEvent?, hcurrent]
      rfl
    rw [hsaved]
    dsimp only
    rw [hviewed, ← hcurrent, ← hstory]
    rfl
  | some index =>
    have hindex := hplaced index hcurrent
    have hsaved : s.snapshot.current = some s.story.events[index].slug := by
      rw [snapshot, currentEvent?, hcurrent, Option.bind_some, List.getElem?_eq_getElem hindex]
      rfl
    rw [hsaved]
    dsimp only
    rw [hstory, findIdx_slug hslugs hindex]
    dsimp only
    rw [hviewed, ← hcurrent]
    rfl

theorem elements_pairwise_lt {set : SortedSet String} : set.elements.Pairwise (· < ·) :=
  set.increasing.imp fun h => compareOfLessAndEq_eq_lt.1 h

/-- A snapshot names an event that the story does not have. -/
def Lacks (s : Session) (saved : Snapshot) (slug : String) : Prop :=
  saved.current = some slug ∧ ∀ event ∈ s.story.events, event.slug ≠ slug

theorem restore_of_lacks {s : Session} {saved : Snapshot} {slug : String} (h : s.Lacks saved slug) :
    s.restore saved = s.fail (.unknownEvent slug) [] := by
  obtain ⟨hsaved, hevents⟩ := h
  have hfound : s.story.events.findIdx? (fun event => event.slug == slug) = none :=
    List.findIdx?_eq_none_iff.2 fun event hevent => beq_false_of_ne (hevents event hevent)
  unfold restore
  rw [hsaved]
  dsimp only
  rw [hfound]

/-- Whatever else a snapshot holds is taken over, with the viewed events as a set. -/
theorem restore_of_not_lacks {s : Session} {saved : Snapshot} (h : ∀ slug, ¬ s.Lacks saved slug) :
    ∃ current, s.restore saved = ⟨.ok (),
        { s with state := saved.state, viewed := .ofList saved.viewed, current }, []⟩ ∧
      (current.bind fun index => s.story.events[index]?).map Event.slug = saved.current := by
  unfold restore
  dsimp only
  cases hsaved : saved.current with
  | none => exact ⟨none, rfl, rfl⟩
  | some slug =>
    cases hfound : s.story.events.findIdx? (fun event => event.slug == slug) with
    | none =>
      refine absurd ⟨hsaved, fun event hevent heq => ?_⟩ (h slug)
      have hne := List.findIdx?_eq_none_iff.1 hfound event hevent
      rw [heq, beq_self_eq_true] at hne
      exact absurd hne (by decide)
    | some index =>
      obtain ⟨hindex, hslug, -⟩ := List.findIdx?_eq_some_iff_getElem.1 hfound
      refine ⟨some index, ?_, ?_⟩
      · dsimp only
        rw [hfound]
      · rw [Option.bind_some, List.getElem?_eq_getElem hindex, Option.map_some, beq_iff_eq.1 hslug]

theorem snapshot_restore {s : Session} {saved : Snapshot} (h : ∀ slug, ¬ s.Lacks saved slug) :
    (s.restore saved).result = .ok () ∧ (s.restore saved).shown = [] ∧
      ∃ viewed, (s.restore saved).session.snapshot = ⟨saved.state, viewed, saved.current⟩ ∧
        viewed.Pairwise (· < ·) ∧ ∀ slug, slug ∈ viewed ↔ slug ∈ saved.viewed := by
  obtain ⟨current, hrestore, hcurrent⟩ := restore_of_not_lacks h
  rw [hrestore]
  refine ⟨rfl, rfl, (SortedSet.ofList saved.viewed).elements, ?_, elements_pairwise_lt, fun slug =>
    SortedSet.mem_ofList⟩
  rw [snapshot, currentEvent?, hcurrent]

/-! ### Snapshots are faithful -/

/-- A session that is reached by some calls goes back, after any other ones, to the snapshot taken
there, and with the same draws to come all further calls look the same; and a session goes back to
any snapshot that names no event which the story lacks. -/
theorem snapshot_faithful :
    (∀ (story : Story) (draws : Draws) (before after : List Call),
      (story.events.map Event.slug).Nodup →
      let s := (build story draws).session.run before
      let t := (s.run after).restore s.snapshot
      t.result = .ok () ∧ t.shown = [] ∧ t.session.snapshot = s.snapshot ∧
        ∀ d, s.draws.Same d → ∀ later,
          ({ t.session with draws := d } : Session).observations later = s.observations later) ∧
    ∀ (s : Session) (saved : Snapshot),
      (∀ slug, s.Lacks saved slug → s.restore saved = s.fail (.unknownEvent slug) []) ∧
      ((∀ slug, ¬ s.Lacks saved slug) →
        (s.restore saved).result = .ok () ∧ (s.restore saved).shown = [] ∧
          ∃ viewed, (s.restore saved).session.snapshot = ⟨saved.state, viewed, saved.current⟩ ∧
            viewed.Pairwise (· < ·) ∧ ∀ slug, slug ∈ viewed ↔ slug ∈ saved.viewed) := by
  refine ⟨?_, fun s saved => ⟨fun slug h => restore_of_lacks h, snapshot_restore⟩⟩
  intro story draws before after hslugs s t
  have hreach := continues_run (begin story draws) before
  have hstory : s.story = story := hreach.story
  have hplaced : s.Placed := hreach.placed (placed_begin story draws)
  have hrestore : t = ⟨.ok (), { s with draws := (s.run after).draws }, []⟩ :=
    restore_snapshot (hstory ▸ hslugs) hplaced (continues_run s after).story
  rw [hrestore]
  refine ⟨rfl, rfl, rfl, fun d hsame later => ?_⟩
  have halike : s.Alike { s with draws := d } := ⟨rfl, rfl, rfl, rfl, hsame⟩
  exact (halike.observations later).symm

/-- An event of the storyline `a` that can always be shown. -/
def openEvent (name : String) : Event :=
  { event := name, storyline := "a", description := name, repeatable := true, onDisplay := []
    triggers := Triggers.none.set ⟨.atom .null .equal .null, 1.0⟩ .soft
    actions := [] }

/-- A story in which the two events `x` and `y` compete in every turn. -/
def twoEvents : Story :=
  ⟨1, "", "", [], [openEvent "x", openEvent "y"], []⟩

/-- Behind its first turn the story goes on from the snapshot of it, with the rolls to come, as
before. -/
theorem snapshot_twoEvents :
    (twoEvents.events.map Event.slug).Nodup ∧
      let s := (build twoEvents (.ofList [0.0, 0.9, 0.1])).session.run [.start]
      let t := (s.run [.next, .start, .moveTo 1]).restore s.snapshot
      t.session.snapshot = s.snapshot ∧
        ({ t.session with draws := ⟨fun n => s.draws.source (s.draws.used + n), 0⟩ } :
          Session).observations [.next, .next] = s.observations [.next, .next] := by
  have hslugs : (twoEvents.events.map Event.slug).Nodup := by decide +kernel
  obtain ⟨-, -, hsnapshot, hobservations⟩ := snapshot_faithful.1 twoEvents (.ofList [0.0, 0.9, 0.1])
    [.start] [.next, .start, .moveTo 1] hslugs
  refine ⟨hslugs, hsnapshot, hobservations _ (fun n => ?_) _⟩
  rw [Nat.zero_add]

end Narrative.Session
