import Mathlib.Tactic.Common
import Narrative.Proofs.Session.Run

/-!
# Sessions with the same draws to come

Two sessions are alike when they differ at most in the draws behind them.  Then every call has the
same result on both, shows the same and leaves sessions that are alike, and so does every run of
calls.
-/

namespace Narrative

/-- The draws to come are the same. -/
def Draws.Same (d e : Draws) : Prop :=
  ∀ n, d.source (d.used + n) = e.source (e.used + n)

namespace Draws.Same

variable {d e : Draws}

theorem head (h : d.Same e) : d.next.1 = e.next.1 :=
  h 0

theorem tail (h : d.Same e) : d.next.2.Same e.next.2 := by
  intro n
  have hnext := h (1 + n)
  rwa [← Nat.add_assoc, ← Nat.add_assoc] at hnext

end Draws.Same

namespace Session

/-- Two sessions that differ at most in the draws behind them. -/
structure Alike (s t : Session) : Prop where
  story : s.story = t.story
  state : s.state = t.state
  viewed : s.viewed = t.viewed
  current : s.current = t.current
  draws : s.draws.Same t.draws

/-- Two turns with the same result and the same displays that leave sessions that are alike. -/
structure AlikeTurn (t u : Turn) : Prop where
  result : t.result = u.result
  shown : t.shown = u.shown
  session : t.session.Alike u.session

namespace Alike

variable {s t : Session}

/-! ### Queries -/

theorem currentEvent (h : s.Alike t) : s.currentEvent? = t.currentEvent? := by
  rw [currentEvent?, currentEvent?, h.current, h.story]

theorem snapshot (h : s.Alike t) : s.snapshot = t.snapshot := by
  rw [Session.snapshot, Session.snapshot, h.state, h.viewed, h.currentEvent]

theorem resourceDisplay (h : s.Alike t) : s.resourceDisplay = t.resourceDisplay := by
  rw [Session.resourceDisplay, Session.resourceDisplay, h.state]

theorem availableFrom (h : s.Alike t) (gate : Gate) (index : Nat) (events : List Event) :
    s.availableFrom gate index events = t.availableFrom gate index events :=
  availableFrom_congr h.viewed index fun _ _ trigger _ => congrArg trigger.condition.holds h.state

theorem available (h : s.Alike t) (gate : Gate) : s.available gate = t.available gate := by
  rw [Session.available, Session.available, h.story]
  exact h.availableFrom gate 0 t.story.events

theorem offeredOf (h : s.Alike t) (actions : List (String × Action)) :
    s.offeredOf actions = t.offeredOf actions :=
  offeredOf_congr fun _ _ c _ => congrArg c.holds h.state

theorem weight (h : s.Alike t) : s.weight = t.weight := by
  funext index
  rw [Session.weight, Session.weight, h.story]

/-! ### Changes -/

theorem withState (h : s.Alike t) (state : State) : Alike { s with state } { t with state } :=
  ⟨h.story, rfl, h.viewed, h.current, h.draws⟩

theorem fail (h : s.Alike t) (e : SessionError) (shown : List Display) :
    AlikeTurn (s.fail e shown) (t.fail e shown) :=
  ⟨rfl, rfl, h⟩

theorem leave (h : s.Alike t) : s.leave.Alike t.leave := by
  unfold Session.leave
  rw [h.currentEvent, h.viewed]
  split
  · split
    · exact h
    · exact ⟨h.story, h.state, rfl, h.current, h.draws⟩
  · exact h

/-- A lottery takes the same draw from both. -/
theorem lottery (h : s.Alike t) (candidates : List Nat) :
    (s.lottery candidates).1 = (t.lottery candidates).1 ∧
      (s.lottery candidates).2.Alike (t.lottery candidates).2 := by
  unfold Session.lottery
  split
  · exact ⟨rfl, h⟩
  · refine ⟨?_, h.story, h.state, h.viewed, h.current, h.draws.tail⟩
    dsimp only
    rw [h.weight, h.draws.head]

/-- Both choose the same event, or both fail with the same error. -/
theorem choose (h : s.Alike t) :
    (∃ e, s.choose = .error e ∧ t.choose = .error e) ∨
      ∃ index s' t', s.choose = .ok (index, s') ∧ t.choose = .ok (index, t') ∧ s'.Alike t' := by
  unfold Session.choose
  rw [h.available .hard, h.available .soft]
  split
  · exact Or.inl ⟨_, rfl, rfl⟩
  · exact Or.inr ⟨_, s, t, rfl, rfl, h⟩
  · split
    · exact Or.inl ⟨_, rfl, rfl⟩
    · rename_i candidates _
      obtain ⟨hindex, hsession⟩ := h.lottery candidates
      refine Or.inr ⟨(s.lottery candidates).1, _, _, rfl, ?_, hsession⟩
      rw [hindex]

/-! ### Calls -/

theorem showEvent (h : s.Alike t) (event : Event) (shown : List Display) :
    AlikeTurn (s.showEvent event shown) (t.showEvent event shown) := by
  unfold Session.showEvent
  rw [h.offeredOf]
  split
  · exact h.fail _ shown
  · exact ⟨rfl, rfl, h⟩

theorem apply (h : s.Alike t) (operations : List Operation) :
    AlikeTurn (s.apply operations) (t.apply operations) := by
  unfold Session.apply
  rw [h.state]
  split
  · rename_i state e _
    exact (h.withState state).fail _ []
  · rename_i state _
    have hstate := h.withState state
    exact ⟨rfl, congrArg (fun shown => [shown]) hstate.resourceDisplay, hstate⟩

theorem moveTo (h : s.Alike t) (index : Nat) : AlikeTurn (s.moveTo index) (t.moveTo index) := by
  have hevent : s.story.events[index]? = t.story.events[index]? := by rw [h.story]
  unfold Session.moveTo
  rw [hevent]
  split
  · exact h.fail _ []
  · rename_i event _
    have hmoved : Alike { s with current := some index } { t with current := some index } :=
      ⟨h.story, h.state, h.viewed, rfl, h.draws⟩
    have happly := hmoved.apply event.onDisplay
    dsimp only
    rw [happly.result, happly.shown]
    split
    · exact happly
    · exact happly.session.showEvent event _

theorem searchAgain (h : s.Alike t) : AlikeTurn s.searchAgain t.searchAgain := by
  unfold Session.searchAgain
  rw [h.state]
  split
  · exact h.fail _ []
  · split
    · exact h.fail _ []
    · rename_i state _
      have hflag := h.withState state
      dsimp only
      rcases hflag.choose with ⟨e, hs, ht⟩ | ⟨index, s', t', hs, ht, hchosen⟩
      · rw [hs, ht]
        exact hflag.fail _ []
      · rw [hs, ht]
        cases index with
        | none => exact hchosen.fail _ []
        | some index => exact hchosen.moveTo index

theorem search (h : s.Alike t) : AlikeTurn s.search t.search := by
  unfold Session.search
  rcases h.choose with ⟨e, hs, ht⟩ | ⟨index, s', t', hs, ht, hchosen⟩
  · rw [hs, ht]
    exact h.fail _ []
  · rw [hs, ht]
    cases index with
    | none => exact hchosen.searchAgain
    | some index => exact hchosen.moveTo index

theorem next (h : s.Alike t) : AlikeTurn s.next t.next := by
  have hleave := h.leave
  have hturn : s.leave.nextTurn = t.leave.nextTurn := by
    rw [nextTurn, nextTurn, turn, turn, hleave.state]
  unfold Session.next
  dsimp only
  rw [hleave.state, hturn]
  split
  · exact hleave.fail _ []
  · rename_i state _
    exact (hleave.withState state).search

theorem start (h : s.Alike t) : AlikeTurn s.start t.start := by
  unfold Session.start
  rw [h.current]
  split
  · exact h.fail _ []
  · exact h.next

theorem respond (h : s.Alike t) (name : String) : AlikeTurn (s.respond name) (t.respond name) := by
  unfold Session.respond
  rw [h.currentEvent]
  split
  · exact h.fail _ []
  · rename_i action _
    have happly := h.apply action.operations
    dsimp only
    rw [happly.result, happly.shown]
    split
    · exact happly
    · have hnext := happly.session.next
      have hshown := congrArg ((t.apply action.operations).shown ++ ·) hnext.shown
      exact ⟨hnext.result, hshown, hnext.session⟩

theorem redisplay (h : s.Alike t) : AlikeTurn s.redisplay t.redisplay := by
  unfold Session.redisplay
  rw [h.currentEvent, h.resourceDisplay]
  dsimp only
  split
  · exact ⟨rfl, rfl, h⟩
  · exact h.showEvent _ _

theorem setState (h : s.Alike t) (state : State) :
    AlikeTurn (s.setState state) (t.setState state) :=
  ⟨rfl, congrArg (fun shown => [shown]) (h.withState state).resourceDisplay, h.withState state⟩

theorem restore (h : s.Alike t) (saved : Snapshot) :
    AlikeTurn (s.restore saved) (t.restore saved) := by
  have hback : ∀ current : Option Nat,
      Alike { s with state := saved.state, viewed := .ofList saved.viewed, current }
        { t with state := saved.state, viewed := .ofList saved.viewed, current } :=
    fun _ => ⟨h.story, rfl, rfl, rfl, h.draws⟩
  unfold Session.restore
  dsimp only
  split
  · exact ⟨rfl, rfl, hback none⟩
  · rename_i slug _
    have hfound : s.story.events.findIdx? (fun event => event.slug == slug) =
        t.story.events.findIdx? fun event => event.slug == slug := by rw [h.story]
    rw [hfound]
    split
    · exact h.fail _ []
    · exact ⟨rfl, rfl, hback _⟩

/-- A call does the same to both. -/
theorem call (h : s.Alike t) (c : Call) : AlikeTurn (s.call c) (t.call c) := by
  cases c with
  | start => exact h.start
  | next => exact h.next
  | respond action => exact h.respond action
  | moveTo index => exact h.moveTo index
  | apply operations => exact h.apply operations
  | redisplay => exact h.redisplay
  | setState state => exact h.setState state
  | restore saved => exact h.restore saved

/-- A run of calls looks the same on both. -/
theorem observations (h : s.Alike t) (calls : List Call) :
    s.observations calls = t.observations calls := by
  induction calls generalizing s t with
  | nil => rfl
  | cons c calls ih =>
    have hcall := h.call c
    rw [Session.observations, Session.observations, observation, observation, hcall.result,
      hcall.shown, hcall.session.snapshot, ih hcall.session]

end Alike

end Session

end Narrative
