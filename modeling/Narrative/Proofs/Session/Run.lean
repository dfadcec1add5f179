import Mathlib.Tactic.Common
import Narrative.Session.Basic

/-!
# Runs of calls

A session is reached from the start of its story by a run of calls, each of which may fail.  Every
call keeps the story, and the event on screen stays one of its events.  What a session lists depends
on its state only through the results of conditions.
-/

namespace Narrative.Session

/-! ### Runs -/

/-- The session behind a run of calls. -/
def run (s : Session) (calls : List Call) : Session :=
  calls.foldl (fun s c => (s.call c).session) s

/-- What the host sees of a call: its result, what it shows, and the snapshot it leaves. -/
structure Observation where
  result : Except SessionError Unit
  shown : List Display
  snapshot : Snapshot

/-- What the host sees of a turn. -/
def observation (t : Turn) : Observation :=
  ⟨t.result, t.shown, t.session.snapshot⟩

/-- What the host sees of a run of calls. -/
def observations (s : Session) : List Call → List Observation
  | [] => []
  | c :: calls => observation (s.call c) :: (s.call c).session.observations calls

/-- The event on screen, if any, is one of the story. -/
def Placed (s : Session) : Prop :=
  ∀ index, s.current = some index → index < s.story.events.length

/-! ### What a session lists -/

/-- The same events are available when their conditions have the same results, errors included. -/
theorem availableFrom_congr {s t : Session} {gate : Gate} (hviewed : t.viewed = s.viewed)
    (first : Nat) {events : List Event}
    (h : ∀ e ∈ events, ∀ trigger, e.triggers.get gate = some trigger →
      trigger.condition.holds t.state = trigger.condition.holds s.state) :
    t.availableFrom gate first events = s.availableFrom gate first events := by
  induction events generalizing first with
  | nil => rfl
  | cons e rest ih =>
    obtain ⟨hfirst, hrest⟩ := List.forall_mem_cons.1 h
    rw [availableFrom, availableFrom, isViewed, isViewed, hviewed, ih (first + 1) hrest]
    cases htrigger : e.triggers.get gate with
    | none => rfl
    | some trigger =>
      dsimp only
      rw [hfirst trigger htrigger]

/-- The same actions are offered when their conditions have the same results, errors included. -/
theorem offeredOf_congr {s t : Session} {actions : List (String × Action)}
    (h : ∀ entry ∈ actions, ∀ c, entry.2.condition = some c → c.holds t.state = c.holds s.state) :
    t.offeredOf actions = s.offeredOf actions := by
  induction actions with
  | nil => rfl
  | cons entry rest ih =>
    obtain ⟨name, action⟩ := entry
    obtain ⟨hfirst, hrest⟩ := List.forall_mem_cons.1 h
    rw [offeredOf, offeredOf, ih hrest]
    cases hcondition : action.condition with
    | none => rfl
    | some c =>
      dsimp only
      rw [hfirst c hcondition]

/-! ### What one step keeps -/

/-- The story is the same, and the event on screen is the same or one of the story. -/
structure Continues (s t : Session) : Prop where
  story : t.story = s.story
  current : t.current = s.current ∨ t.Placed

namespace Continues

variable {s t u : Session}

theorem refl (s : Session) : s.Continues s :=
  ⟨rfl, Or.inl rfl⟩

theorem placed (h : s.Continues t) (hs : s.Placed) : t.Placed := by
  rcases h.current with hcurrent | ht
  · intro index hindex
    rw [h.story]
    exact hs index (hcurrent ▸ hindex)
  · exact ht

theorem trans (h : s.Continues t) (hnext : t.Continues u) : s.Continues u := by
  refine ⟨hnext.story.trans h.story, ?_⟩
  rcases hnext.current with hcurrent | hu
  · rcases h.current with hcurrent' | ht
    · exact Or.inl (hcurrent.trans hcurrent')
    · exact Or.inr (hnext.placed ht)
  · exact Or.inr hu

end Continues

/-- Leaving the event on screen changes what is viewed alone. -/
theorem leave_eq (s : Session) : s.leave = { s with viewed := s.leave.viewed } := by
  unfold leave
  split
  · split <;> rfl
  · rfl

theorem state_leave (s : Session) : s.leave.state = s.state := by
  rw [leave_eq]

theorem current_leave (s : Session) : s.leave.current = s.current := by
  rw [leave_eq]

theorem continues_leave (s : Session) : s.Continues s.leave := by
  rw [leave_eq]
  exact ⟨rfl, Or.inl rfl⟩

theorem continues_lottery (s : Session) (candidates : List Nat) :
    s.Continues (s.lottery candidates).2 := by
  unfold lottery
  split
  · exact .refl s
  · exact ⟨rfl, Or.inl rfl⟩

theorem continues_choose {s t : Session} {index : Option Nat} (h : s.choose = .ok (index, t)) :
    s.Continues t := by
  unfold choose at h
  split at h
  · exact absurd h (by simp)
  · obtain ⟨-, rfl⟩ := Prod.mk.inj (Except.ok.inj h)
    exact .refl s
  · split at h
    · exact absurd h (by simp)
    · rename_i candidates _
      have hlottery := continues_lottery s candidates
      rwa [Except.ok.inj h] at hlottery

theorem session_showEvent (s : Session) (event : Event) (shown : List Display) :
    (s.showEvent event shown).session = s := by
  unfold showEvent
  split <;> rfl

theorem session_redisplay (s : Session) : s.redisplay.session = s := by
  unfold redisplay
  dsimp only
  split
  · rfl
  · exact session_showEvent _ _ _

theorem continues_apply (s : Session) (operations : List Operation) :
    s.Continues (s.apply operations).session := by
  unfold apply
  split
  all_goals exact ⟨rfl, Or.inl rfl⟩

theorem continues_moveTo (s : Session) (index : Nat) : s.Continues (s.moveTo index).session := by
  unfold moveTo
  split
  · exact .refl s
  · rename_i event hevent
    have hplaced : ({ s with current := some index } : Session).Placed := by
      rintro _ ⟨rfl⟩
      exact (List.getElem?_eq_some_iff.1 hevent).1
    have happly := continues_apply { s with current := some index } event.onDisplay
    have hmove : s.Continues ({ s with current := some index }.apply event.onDisplay).session :=
      ⟨happly.story, Or.inr (happly.placed hplaced)⟩
    dsimp only
    split
    · exact hmove
    · rw [session_showEvent]
      exact hmove

theorem continues_searchAgain (s : Session) : s.Continues s.searchAgain.session := by
  unfold searchAgain
  split
  · exact .refl s
  · split
    · exact .refl s
    · rename_i state _
      have hflag : s.Continues { s with state } := ⟨rfl, Or.inl rfl⟩
      dsimp only
      split
      · exact hflag
      · rename_i hchoose
        exact hflag.trans ((continues_choose hchoose).trans (continues_moveTo _ _))
      · rename_i hchoose
        exact hflag.trans (continues_choose hchoose)

theorem continues_search (s : Session) : s.Continues s.search.session := by
  unfold search
  split
  · exact .refl s
  · rename_i hchoose
    exact (continues_choose hchoose).trans (continues_moveTo _ _)
  · rename_i hchoose
    exact (continues_choose hchoose).trans (continues_searchAgain _)

theorem continues_next (s : Session) : s.Continues s.next.session := by
  refine (continues_leave s).trans ?_
  unfold next
  dsimp only
  split
  · exact .refl _
  · rename_i state _
    have hturn : s.leave.Continues { s.leave with state } := ⟨rfl, Or.inl rfl⟩
    exact hturn.trans (continues_search _)

theorem continues_start (s : Session) : s.Continues s.start.session := by
  unfold start
  split
  · exact .refl s
  · exact continues_next s

theorem continues_respond (s : Session) (name : String) :
    s.Continues (s.respond name).session := by
  unfold respond
  split
  · exact .refl s
  · rename_i action _
    have happly := continues_apply s action.operations
    dsimp only
    split
    · exact happly
    · exact happly.trans (continues_next _)

theorem continues_redisplay (s : Session) : s.Continues s.redisplay.session := by
  rw [session_redisplay]
  exact .refl s

theorem continues_restore (s : Session) (saved : Snapshot) :
    s.Continues (s.restore saved).session := by
  unfold restore
  dsimp only
  split
  · exact ⟨rfl, Or.inr fun _ h => absurd h (by simp)⟩
  · split
    · exact .refl s
    · rename_i index hindex
      refine ⟨rfl, Or.inr ?_⟩
      rintro _ ⟨rfl⟩
      exact (List.findIdx?_eq_some_iff_getElem.1 hindex).1

/-- Every call keeps the story and keeps an event of the story on screen. -/
theorem continues_call (s : Session) (c : Call) : s.Continues (s.call c).session := by
  cases c with
  | start => exact continues_start s
  | next => exact continues_next s
  | respond action => exact continues_respond s action
  | moveTo index => exact continues_moveTo s index
  | apply operations => exact continues_apply s operations
  | redisplay => exact continues_redisplay s
  | setState state => exact ⟨rfl, Or.inl rfl⟩
  | restore saved => exact continues_restore s saved

theorem continues_run (s : Session) (calls : List Call) : s.Continues (s.run calls) := by
  induction calls generalizing s with
  | nil => exact .refl s
  | cons c calls ih => exact (continues_call s c).trans (ih _)

theorem placed_begin (story : Story) (draws : Draws) : (begin story draws).Placed :=
  fun _ h => absurd h (by simp [begin])

end Narrative.Session
