import Mathlib.Tactic.Common
import Narrative.Proofs.Session.Selection
import Narrative.Proofs.Session.Turn

/-!
# Turns without rivals

A turn takes a draw only where soft triggers compete.  When no search of a turn finds two candidates
for the lottery, the draws do not matter: with other draws to come every call has the same result,
shows the same and leaves the same session but for the draws.
-/

namespace Narrative

/-! ### Other draws -/

/-- A session with other draws to come. -/
def Session.redrawn (s : Session) (d : Draws) : Session :=
  { s with draws := d }

/-- A turn that leaves its session with other draws to come. -/
def Turn.redrawn (t : Turn) (d : Draws) : Turn :=
  { t with session := t.session.redrawn d }

namespace Session

variable {s : Session}

theorem currentEvent_redrawn (s : Session) (d : Draws) :
    (s.redrawn d).currentEvent? = s.currentEvent? :=
  rfl

theorem availableFrom_redrawn (s : Session) (d : Draws) (gate : Gate) (index : Nat)
    (events : List Event) :
    (s.redrawn d).availableFrom gate index events = s.availableFrom gate index events := by
  have hviewed : (s.redrawn d).viewed = s.viewed := rfl
  exact availableFrom_congr hviewed index fun _ _ _ _ => rfl

theorem available_redrawn (s : Session) (d : Draws) (gate : Gate) :
    (s.redrawn d).available gate = s.available gate :=
  s.availableFrom_redrawn d gate 0 s.story.events

theorem offeredOf_redrawn (s : Session) (d : Draws) (actions : List (String × Action)) :
    (s.redrawn d).offeredOf actions = s.offeredOf actions := by
  have hstate : (s.redrawn d).state = s.state := rfl
  exact offeredOf_congr fun _ _ c _ => congrArg c.holds hstate

theorem offered_redrawn (s : Session) (d : Draws) : (s.redrawn d).offered = s.offered := by
  rw [offered, offered, currentEvent_redrawn]
  cases s.currentEvent? with
  | none => rfl
  | some e => exact s.offeredOf_redrawn d e.actions

theorem leave_redrawn (s : Session) (d : Draws) : (s.redrawn d).leave = s.leave.redrawn d := by
  rw [leave, leave, currentEvent_redrawn]
  cases s.currentEvent? with
  | none => rfl
  | some e =>
    dsimp only
    split <;> rfl

theorem apply_redrawn (s : Session) (d : Draws) (operations : List Operation) :
    (s.redrawn d).apply operations = (s.apply operations).redrawn d := by
  have hstate : (s.redrawn d).state = s.state := rfl
  rw [apply, apply, hstate]
  split <;> rfl

theorem showEvent_redrawn (s : Session) (d : Draws) (e : Event) (shown : List Display) :
    (s.redrawn d).showEvent e shown = (s.showEvent e shown).redrawn d := by
  rw [showEvent, showEvent, offeredOf_redrawn]
  split <;> rfl

theorem moveTo_redrawn (s : Session) (d : Draws) (index : Nat) :
    (s.redrawn d).moveTo index = (s.moveTo index).redrawn d := by
  have hevents : (s.redrawn d).story.events[index]? = s.story.events[index]? := rfl
  rw [moveTo, moveTo, hevents]
  cases s.story.events[index]? with
  | none => rfl
  | some e =>
    have hmoved : (⟨(s.redrawn d).story, (s.redrawn d).state, (s.redrawn d).viewed, some index,
        (s.redrawn d).draws⟩ : Session) = ({ s with current := some index } : Session).redrawn d :=
      rfl
    dsimp only
    rw [hmoved, apply_redrawn]
    rcases ({ s with current := some index } : Session).apply e.onDisplay with
      ⟨cause | _, session, shown⟩
    · rfl
    · exact session.showEvent_redrawn d e shown

/-! ### Searches without rivals -/

/-- While no hard trigger holds, at most one event has a soft trigger that does. -/
def Unrivalled (s : Session) : Prop :=
  s.available .hard = .ok [] → ∀ candidates, s.available .soft = .ok candidates →
    candidates.length ≤ 1

theorem length_le_of_availableFrom {gate : Gate} {index : Nat} {events : List Event}
    {found : List Nat} (h : s.availableFrom gate index events = .ok found) :
    found.length ≤ events.countP fun e => (e.triggers.get gate).isSome := by
  induction events generalizing index found with
  | nil =>
    obtain rfl := Except.ok.inj h
    exact Nat.le_refl 0
  | cons e rest ih =>
    rw [availableFrom] at h
    rw [List.countP_cons]
    split at h
    · exact Nat.le_add_right_of_le (ih h)
    · rename_i trigger htrigger
      rw [htrigger, Option.isSome_some, if_pos rfl]
      split at h
      · exact Nat.le_succ_of_le (ih h)
      · split at h
        · cases h
        · exact Nat.le_succ_of_le (ih h)
        · obtain ⟨others, hothers, rfl⟩ := Except.exists_of_map h
          exact Nat.succ_le_succ (ih hothers)

/-- The lottery never has two candidates in a story with one soft trigger. -/
theorem unrivalled_of_soft (h : s.story.events.countP (fun e => e.triggers.soft.isSome) ≤ 1) :
    s.Unrivalled :=
  fun _ _ hsoft => Nat.le_trans (length_le_of_availableFrom hsoft) h

/-- A lottery of at most one candidate is no matter of luck. -/
theorem lottery_of_length_le_one (s : Session) {candidates : List Nat}
    (h : candidates.length ≤ 1) :
    ∃ d, s.lottery candidates = (candidates.head?, s.redrawn d) := by
  match candidates with
  | [] => exact ⟨s.draws, rfl⟩
  | [index] =>
    obtain ⟨k, hk, hlt⟩ := Lottery.exists_pickBy Decimal.floor
      (List.cons_ne_nil (s.weight index) []) s.draws.next.1
    obtain rfl : k = 0 := by simpa using hlt
    refine ⟨s.draws.next.2, Prod.ext ?_ rfl⟩
    have hpick : Lottery.pick [s.weight index] s.draws.next.1 = some 0 := hk
    show (Lottery.pick [s.weight index] s.draws.next.1).bind (fun i => [index][i]?) = some index
    rw [hpick]
    rfl
  | first :: second :: others => simp at h

theorem choose_redrawn (h : s.Unrivalled) (d : Draws) :
    ∃ e, (s.redrawn d).choose = s.choose.map fun found => (found.1, found.2.redrawn e) := by
  rw [choose, choose, available_redrawn, available_redrawn]
  cases hhard : s.available .hard with
  | error cause => exact ⟨d, rfl⟩
  | ok found =>
    cases found with
    | cons first others => exact ⟨d, rfl⟩
    | nil =>
      cases hsoft : s.available .soft with
      | error cause => exact ⟨d, rfl⟩
      | ok candidates =>
        have hone := h hhard candidates hsoft
        obtain ⟨_, hs⟩ := s.lottery_of_length_le_one hone
        obtain ⟨e, hd⟩ := (s.redrawn d).lottery_of_length_le_one hone
        refine ⟨e, ?_⟩
        dsimp only
        rw [hs, hd]
        rfl

/-- The sessions in which the next turn searches for an event: behind the turn counter, and with
the flag set as well when nothing is found there. -/
inductive Searches (s : Session) : Session → Prop
  | first {state : State} (hturn : s.leave.state.setGlobal turnKey s.leave.nextTurn = .ok state) :
    Searches s { s.leave with state }
  | again {t u : Session} {state : State} (ht : Searches s t) (hnone : t.choose = .ok (none, u))
      (hflag : u.state.globalFlag noEventsKey = false)
      (hset : u.state.setGlobal noEventsKey (.bool true) = .ok state) :
    Searches s { u with state }

theorem Searches.story {t : Session} (h : s.Searches t) : t.story = s.story := by
  induction h with
  | first _ => exact (continues_leave s).story
  | again _ hnone _ _ ih => exact (continues_choose hnone).story.trans ih

theorem searchAgain_redrawn
    (h : s.state.globalFlag noEventsKey = false →
      ∀ state, s.state.setGlobal noEventsKey (.bool true) = .ok state →
        Unrivalled { s with state })
    (d : Draws) : ∃ e, (s.redrawn d).searchAgain = s.searchAgain.redrawn e := by
  have hstate : (s.redrawn d).state = s.state := rfl
  rw [searchAgain, searchAgain, hstate]
  split
  · exact ⟨d, rfl⟩
  · rename_i hflag
    cases hset : s.state.setGlobal noEventsKey (.bool true) with
    | error cause => exact ⟨d, rfl⟩
    | ok state =>
      obtain ⟨e, hchoose⟩ := choose_redrawn (h (by simpa using hflag) state hset) d
      have hsame : ({ s.redrawn d with state } : Session) =
          ({ s with state } : Session).redrawn d := rfl
      dsimp only
      rw [hsame, hchoose]
      rcases ({ s with state } : Session).choose with cause | ⟨_ | index, t⟩
      · exact ⟨d, rfl⟩
      · exact ⟨e, rfl⟩
      · exact ⟨e, t.moveTo_redrawn e index⟩

theorem next_redrawn (h : ∀ t, s.Searches t → t.Unrivalled) (d : Draws) :
    ∃ e, (s.redrawn d).next = s.next.redrawn e := by
  rw [next, next, leave_redrawn]
  have hstate : (s.leave.redrawn d).state = s.leave.state := rfl
  have hturn : (s.leave.redrawn d).nextTurn = s.leave.nextTurn := rfl
  rw [hstate, hturn]
  cases hset : s.leave.state.setGlobal turnKey s.leave.nextTurn with
  | error cause => exact ⟨d, rfl⟩
  | ok state =>
    have hfirst : s.Searches { s.leave with state } := .first hset
    have hsame : ({ s.leave.redrawn d with state } : Session) =
        ({ s.leave with state } : Session).redrawn d := rfl
    obtain ⟨e, hchoose⟩ := choose_redrawn (h _ hfirst) d
    dsimp only
    rw [hsame, search, search, hchoose]
    cases hfound : ({ s.leave with state } : Session).choose with
    | error cause => exact ⟨d, rfl⟩
    | ok found =>
      obtain ⟨_ | index, t⟩ := found
      · refine searchAgain_redrawn (fun hflag state' hset' => ?_) e
        exact h _ (hfirst.again hfound hflag hset')
      · exact ⟨e, t.moveTo_redrawn e index⟩

/-! ### Answers without rivals -/

/-- The sessions in which the answer with an action searches for the next event. -/
def AnswerSearches (s : Session) (name : String) (t : Session) : Prop :=
  ∃ action, s.action? name = some action ∧ (s.apply action.operations).result = .ok () ∧
    (s.apply action.operations).session.Searches t

theorem AnswerSearches.story {name : String} {t : Session} (h : s.AnswerSearches name t) :
    t.story = s.story := by
  obtain ⟨action, -, -, hsearches⟩ := h
  exact hsearches.story.trans (continues_apply s action.operations).story

theorem respond_redrawn {name : String} (h : ∀ t, s.AnswerSearches name t → t.Unrivalled)
    (d : Draws) : ∃ e, (s.redrawn d).respond name = (s.respond name).redrawn e := by
  rw [respond_eq, respond_eq]
  have haction : (s.redrawn d).action? name = s.action? name := rfl
  rw [haction]
  cases hfound : s.action? name with
  | none => exact ⟨d, rfl⟩
  | some action =>
    dsimp only
    rw [play, play, apply_redrawn]
    have hresult : ((s.apply action.operations).redrawn d).result =
        (s.apply action.operations).result := rfl
    dsimp only
    rw [hresult]
    cases hdone : (s.apply action.operations).result with
    | error cause => exact ⟨d, rfl⟩
    | ok u =>
      obtain ⟨e, hnext⟩ := next_redrawn (fun t ht => h t ⟨action, hfound, hdone, ht⟩) d
      have hsame : ((s.apply action.operations).redrawn d).session =
          (s.apply action.operations).session.redrawn d := rfl
      dsimp only
      rw [hsame, hnext]
      exact ⟨e, rfl⟩

end Session

end Narrative
