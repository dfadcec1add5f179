import Mathlib.Tactic.Common
import Narrative.Proofs.Except
import Narrative.Proofs.Session.Run

/-!
# Where turns lead

A turn leaves the event on screen, searches, and then either puts an event on screen or fails.  The
searches only change the document and the draws: what they find was not viewed, and what was on
screen stays there until another event takes its place.
-/

namespace Narrative.Session

/-! ### Playing an action -/

/-- The action of a name that the event on screen has. -/
def action? (s : Session) (name : String) : Option Action :=
  s.currentEvent?.bind fun e => e.action? name

/-- Run the operations of an action and go on to the next turn. -/
def play (s : Session) (action : Action) : Turn :=
  let applied := s.apply action.operations
  match applied.result with
  | .error _ => applied
  | .ok () =>
    let turn := applied.session.next
    { turn with shown := applied.shown ++ turn.shown }

/-- An action is looked up by its name, and what is found is played. -/
theorem respond_eq (s : Session) (name : String) :
    s.respond name = match s.action? name with
      | none => s.fail (.actionNotAvailable name) []
      | some action => s.play action := by
  unfold respond action?
  cases s.currentEvent?.bind fun e => e.action? name with
  | none => rfl
  | some action => rfl

/-- An action that cannot be run leaves what its operations leave. -/
theorem session_play (s : Session) (action : Action) :
    (s.play action).session = match (s.apply action.operations).result with
      | .error _ => (s.apply action.operations).session
      | .ok () => (s.apply action.operations).session.next.session := by
  unfold play
  dsimp only
  cases (s.apply action.operations).result with
  | error e => rfl
  | ok u => rfl

/-! ### Destinations -/

/-- Where the searches of a turn lead. -/
inductive Destination where
  /-- An event, which is put on screen in a session. -/
  | event (origin : Session) (index : Nat)
  /-- An error, which leaves a session. -/
  | nowhere (left : Session) (error : SessionError)

namespace Destination

/-- The turn that ends at a destination. -/
def turn : Destination → Turn
  | event origin index => origin.moveTo index
  | nowhere left e => left.fail e []

/-- The number of the event that is put on screen. -/
def index? : Destination → Option Nat
  | event _ index => some index
  | nowhere _ _ => none

end Destination

/-- Where the second search of a turn leads. -/
def lastDestination (s : Session) : Destination :=
  if s.state.globalFlag noEventsKey then .nowhere s .noEventsAvailable
  else
    match s.state.setGlobal noEventsKey (.bool true) with
    | .error e => .nowhere s (.state e)
    | .ok state =>
      let s := { s with state }
      match s.choose with
      | .error e => .nowhere s (.state e)
      | .ok (some index, s) => .event s index
      | .ok (none, s) => .nowhere s .noEventsAvailable

/-- Where the searches of a turn lead once the turn counter is written. -/
def firstDestination (s : Session) : Destination :=
  match s.choose with
  | .error e => .nowhere s (.state e)
  | .ok (some index, s) => .event s index
  | .ok (none, s) => s.lastDestination

/-- Where the next turn leads. -/
def destination (s : Session) : Destination :=
  let s := s.leave
  match s.state.setGlobal turnKey s.nextTurn with
  | .error e => .nowhere s (.state e)
  | .ok state => { s with state }.firstDestination

theorem turn_lastDestination (s : Session) : s.lastDestination.turn = s.searchAgain := by
  unfold lastDestination searchAgain
  by_cases hflag : s.state.globalFlag noEventsKey = true
  · rw [if_pos hflag, if_pos hflag]
    rfl
  · rw [if_neg hflag, if_neg hflag]
    cases s.state.setGlobal noEventsKey (.bool true) with
    | error e => rfl
    | ok state =>
      dsimp only
      rcases ({ s with state } : Session).choose with e | ⟨_ | index, t⟩ <;> rfl

theorem turn_firstDestination (s : Session) : s.firstDestination.turn = s.search := by
  unfold firstDestination search
  rcases s.choose with e | ⟨_ | index, t⟩
  · rfl
  · exact turn_lastDestination t
  · rfl

/-- A turn ends where its searches lead. -/
theorem turn_destination (s : Session) : s.destination.turn = s.next := by
  unfold destination next
  dsimp only
  cases s.leave.state.setGlobal turnKey s.leave.nextTurn with
  | error e => rfl
  | ok state => exact turn_firstDestination _

/-! ### What the searches keep -/

/-- The second session differs from the first one at most in its document and its draws. -/
structure Unmoved (s t : Session) : Prop where
  story : t.story = s.story
  viewed : t.viewed = s.viewed
  current : t.current = s.current

namespace Unmoved

variable {s t u : Session}

theorem refl (s : Session) : s.Unmoved s :=
  ⟨rfl, rfl, rfl⟩

theorem trans (h : s.Unmoved t) (hnext : t.Unmoved u) : s.Unmoved u :=
  ⟨hnext.story.trans h.story, hnext.viewed.trans h.viewed, hnext.current.trans h.current⟩

theorem withState (h : s.Unmoved t) (state : State) : s.Unmoved { t with state } :=
  ⟨h.story, h.viewed, h.current⟩

end Unmoved

/-- An event of the story that was not viewed. -/
def Fresh (s : Session) (index : Nat) : Prop :=
  ∃ e, s.story.events[index]? = some e ∧ s.isViewed e.slug = false

theorem Unmoved.fresh {s t : Session} (h : s.Unmoved t) {index : Nat} (ht : t.Fresh index) :
    s.Fresh index := by
  obtain ⟨e, he, hviewed⟩ := ht
  refine ⟨e, h.story ▸ he, ?_⟩
  rw [isViewed, h.viewed] at hviewed
  exact hviewed

/-- Operations change the document alone, also where they stop at an error. -/
theorem session_apply (s : Session) (operations : List Operation) :
    (s.apply operations).session = { s with state := (s.state.applyAll operations).1 } := by
  unfold apply
  rcases s.state.applyAll operations with ⟨state, _ | e⟩ <;> rfl

/-- An event of the story is on screen once it is moved to, and what it does when it is shown is
done, whether showing it fails or not. -/
theorem session_moveTo {s : Session} {index : Nat} {e : Event}
    (he : s.story.events[index]? = some e) :
    (s.moveTo index).session =
      { s with current := some index, state := (s.state.applyAll e.onDisplay).1 } := by
  unfold moveTo
  rw [he]
  have happly := session_apply { s with current := some index } e.onDisplay
  dsimp only
  split
  · exact happly
  · rw [session_showEvent]
    exact happly

theorem unmoved_apply (s : Session) (operations : List Operation) :
    s.Unmoved (s.apply operations).session := by
  rw [session_apply]
  exact ⟨rfl, rfl, rfl⟩

theorem unmoved_moveTo {s : Session} {index : Nat} (hindex : index < s.story.events.length) :
    ({ s with current := some index } : Session).Unmoved (s.moveTo index).session := by
  rw [session_moveTo (List.getElem?_eq_getElem hindex)]
  exact ⟨rfl, rfl, rfl⟩

theorem unmoved_lottery (s : Session) (candidates : List Nat) :
    s.Unmoved (s.lottery candidates).2 := by
  unfold lottery
  split
  · exact .refl s
  · exact ⟨rfl, rfl, rfl⟩

theorem mem_of_lottery {s : Session} {candidates : List Nat} {index : Nat}
    (h : (s.lottery candidates).1 = some index) : index ∈ candidates := by
  unfold lottery at h
  split at h
  · exact absurd h nofun
  · obtain ⟨k, -, hk⟩ := Option.bind_eq_some_iff.1 h
    exact List.mem_of_getElem? hk

/-- An event was not viewed, and the condition of its trigger passes in the document. -/
def Opens (s : Session) (gate : Gate) (e : Event) : Prop :=
  s.isViewed e.slug = false ∧
    ∃ trigger, e.triggers.get gate = some trigger ∧ trigger.condition.holds s.state = .ok true

/-- Whether the first event opens decides alone how the available indices go on. -/
theorem availableFrom_cons_cases {s : Session} {gate : Gate} {first : Nat} {e : Event}
    {rest : List Event} {found : List Nat} (h : s.availableFrom gate first (e :: rest) = .ok found) :
    (s.Opens gate e ∧ (s.availableFrom gate (first + 1) rest).map (first :: ·) = .ok found) ∨
      (¬s.Opens gate e ∧ s.availableFrom gate (first + 1) rest = .ok found) := by
  rw [availableFrom] at h
  cases htrigger : e.triggers.get gate with
  | none =>
    rw [htrigger] at h
    refine Or.inr ⟨?_, h⟩
    rintro ⟨-, trigger, hget, -⟩
    cases htrigger.symm.trans hget
  | some trigger =>
    rw [htrigger] at h
    dsimp only at h
    by_cases hviewed : s.isViewed e.slug = true
    · rw [if_pos hviewed] at h
      refine Or.inr ⟨?_, h⟩
      rintro ⟨hfresh, -⟩
      cases hviewed.symm.trans hfresh
    · rw [if_neg hviewed] at h
      cases hholds : trigger.condition.holds s.state with
      | error cause =>
        rw [hholds] at h
        cases h
      | ok passed =>
        rw [hholds] at h
        cases passed with
        | true => exact Or.inl ⟨⟨by simpa using hviewed, trigger, htrigger, hholds⟩, h⟩
        | false =>
          refine Or.inr ⟨?_, h⟩
          rintro ⟨-, other, hget, hpasses⟩
          obtain rfl : trigger = other := Option.some.inj (htrigger.symm.trans hget)
          cases hholds.symm.trans hpasses

/-- The events that are available, when no condition fails to evaluate. -/
theorem mem_availableFrom {s : Session} {gate : Gate} {first : Nat} {events : List Event}
    {found : List Nat} (h : s.availableFrom gate first events = .ok found) (index : Nat) :
    index ∈ found ↔ ∃ k e, index = first + k ∧ events[k]? = some e ∧ s.Opens gate e := by
  induction events generalizing first found with
  | nil =>
    obtain rfl := Except.ok.inj h
    simp
  | cons e rest ih =>
    have hsplit : (∃ k other, index = first + k ∧ (e :: rest)[k]? = some other ∧ s.Opens gate other) ↔
        (index = first ∧ s.Opens gate e) ∨
          ∃ k other, index = first + 1 + k ∧ rest[k]? = some other ∧ s.Opens gate other := by
      constructor
      · rintro ⟨k, other, hindex, hother, hopens⟩
        cases k with
        | zero =>
          obtain rfl : e = other := Option.some.inj hother
          exact Or.inl ⟨hindex, hopens⟩
        | succ k => exact Or.inr ⟨k, other, by omega, hother, hopens⟩
      · rintro (⟨rfl, hopens⟩ | ⟨k, other, hindex, hother, hopens⟩)
        · exact ⟨0, e, rfl, rfl, hopens⟩
        · exact ⟨k + 1, other, by omega, hother, hopens⟩
    rw [hsplit]
    rcases availableFrom_cons_cases h with ⟨hopens, hfound⟩ | ⟨hcloses, hfound⟩
    · obtain ⟨others, hothers, rfl⟩ := Except.exists_of_map hfound
      rw [List.mem_cons, ih hothers]
      simp only [hopens, and_true]
    · rw [ih hfound]
      simp only [hcloses, and_false, false_or]

theorem mem_available {s : Session} {gate : Gate} {found : List Nat}
    (h : s.available gate = .ok found) (index : Nat) :
    index ∈ found ↔ ∃ e, s.story.events[index]? = some e ∧ s.Opens gate e := by
  rw [mem_availableFrom h index]
  simp

/-- An event that is available was not viewed. -/
theorem fresh_of_available {s : Session} {gate : Gate} {found : List Nat}
    (h : s.available gate = .ok found) {index : Nat} (hindex : index ∈ found) : s.Fresh index := by
  obtain ⟨e, he, hopens⟩ := (mem_available h index).1 hindex
  exact ⟨e, he, hopens.1⟩

/-- One search finds an event that was not viewed, or none. -/
theorem unmoved_choose {s t : Session} {found : Option Nat} (h : s.choose = .ok (found, t)) :
    s.Unmoved t ∧ ∀ index, found = some index → s.Fresh index := by
  unfold choose at h
  split at h
  · exact absurd h nofun
  · rename_i first others hhard
    obtain ⟨rfl, rfl⟩ := Prod.mk.inj (Except.ok.inj h)
    refine ⟨.refl s, ?_⟩
    rintro index ⟨rfl⟩
    exact fresh_of_available hhard List.mem_cons_self
  · split at h
    · exact absurd h nofun
    · rename_i candidates hsoft
      have heq : s.lottery candidates = (found, t) := Except.ok.inj h
      have hunmoved := s.unmoved_lottery candidates
      rw [heq] at hunmoved
      refine ⟨hunmoved, fun index hindex => fresh_of_available hsoft ?_⟩
      have hlottery : (s.lottery candidates).1 = some index := by rw [heq, hindex]
      exact mem_of_lottery hlottery

/-- What the searches of a turn have done so far in a session: nothing but searching, and what they
found was not viewed, or the document fails them, or there is no event. -/
def Destination.From (s : Session) : Destination → Prop
  | .event origin index => s.Unmoved origin ∧ s.Fresh index
  | .nowhere left e =>
    s.Unmoved left ∧ (e = .noEventsAvailable ∨ ∃ cause, e = .state cause)

theorem Destination.From.of_unmoved {s t : Session} (h : s.Unmoved t) {d : Destination}
    (hd : d.From t) : d.From s := by
  cases d with
  | event origin index => exact ⟨h.trans hd.1, h.fresh hd.2⟩
  | nowhere left e => exact ⟨h.trans hd.1, hd.2⟩

theorem from_lastDestination (s : Session) : s.lastDestination.From s := by
  unfold lastDestination
  split
  · exact ⟨.refl s, Or.inl rfl⟩
  · split
    · rename_i cause _
      exact ⟨.refl s, Or.inr ⟨cause, rfl⟩⟩
    · rename_i state _
      have hflag : s.Unmoved { s with state } := (Unmoved.refl s).withState state
      refine Destination.From.of_unmoved hflag ?_
      dsimp only
      split
      · rename_i cause _
        exact ⟨.refl _, Or.inr ⟨cause, rfl⟩⟩
      · rename_i index t hchoose
        obtain ⟨hunmoved, hfresh⟩ := unmoved_choose hchoose
        exact ⟨hunmoved, hfresh index rfl⟩
      · rename_i t hchoose
        exact ⟨(unmoved_choose hchoose).1, Or.inl rfl⟩

theorem from_firstDestination (s : Session) : s.firstDestination.From s := by
  unfold firstDestination
  split
  · rename_i cause _
    exact ⟨.refl s, Or.inr ⟨cause, rfl⟩⟩
  · rename_i index t hchoose
    obtain ⟨hunmoved, hfresh⟩ := unmoved_choose hchoose
    exact ⟨hunmoved, hfresh index rfl⟩
  · rename_i t hchoose
    exact .of_unmoved (unmoved_choose hchoose).1 (from_lastDestination t)

/-- A turn searches once the event on screen is left. -/
theorem from_destination (s : Session) : s.destination.From s.leave := by
  unfold destination
  dsimp only
  split
  · rename_i cause _
    exact ⟨.refl _, Or.inr ⟨cause, rfl⟩⟩
  · rename_i state _
    exact .of_unmoved ((Unmoved.refl _).withState state) (from_firstDestination _)

/-! ### What calls fail with -/

theorem result_apply {s : Session} {operations : List Operation} {e : SessionError}
    (h : (s.apply operations).result = .error e) : ∃ cause, e = .state cause := by
  unfold apply at h
  split at h
  · rename_i state cause _
    exact ⟨cause, (Except.error.inj h).symm⟩
  · exact absurd h nofun

theorem result_showEvent {s : Session} {event : Event} {shown : List Display} {e : SessionError}
    (h : (s.showEvent event shown).result = .error e) : ∃ cause, e = .state cause := by
  unfold showEvent at h
  split at h
  · rename_i cause _
    exact ⟨cause, (Except.error.inj h).symm⟩
  · exact absurd h nofun

/-- An event of the story is put on screen, unless the document fails what it runs or checks. -/
theorem result_moveTo {s : Session} {index : Nat} (hindex : index < s.story.events.length)
    {e : SessionError} (h : (s.moveTo index).result = .error e) : ∃ cause, e = .state cause := by
  unfold moveTo at h
  rw [List.getElem?_eq_getElem hindex] at h
  dsimp only at h
  split at h
  · exact result_apply h
  · exact result_showEvent h

theorem result_next {s : Session} {e : SessionError} (h : s.next.result = .error e) :
    e = .noEventsAvailable ∨ ∃ cause, e = .state cause := by
  have hfrom := from_destination s
  rw [← turn_destination] at h
  cases hdestination : s.destination with
  | event origin index =>
    rw [hdestination] at h hfrom
    obtain ⟨hunmoved, event, hevent, -⟩ := hfrom
    rw [← hunmoved.story] at hevent
    exact Or.inr (result_moveTo (List.getElem?_eq_some_iff.1 hevent).1 h)
  | nowhere left cause =>
    rw [hdestination] at h hfrom
    obtain rfl : cause = e := Except.error.inj h
    exact hfrom.2

theorem result_play {s : Session} {action : Action} {e : SessionError}
    (h : (s.play action).result = .error e) :
    e = .noEventsAvailable ∨ ∃ cause, e = .state cause := by
  unfold play at h
  dsimp only at h
  split at h
  · exact Or.inr (result_apply h)
  · exact result_next h

end Narrative.Session
