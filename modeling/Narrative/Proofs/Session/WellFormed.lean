import Narrative.Proofs.Bundle.RoundTrip
import Narrative.Proofs.Bundle.WellFormed
import Narrative.Proofs.Session.Turn

/-!
# Sessions keep well-formed states

A session of a compiled story starts in a well-formed state.  Each turn writes the counter and the
flag of the turn itself, which always succeeds in such a state; all else that it does to the state
are operations that the story or the host has written, and they keep it well formed.
-/

namespace Narrative.Session

open Json

/-! ### Runs that a host can make -/

/-- The operations that the host hands to a call. -/
def Call.operations : Call → List Operation
  | .apply operations => operations
  | _ => []

/-- A call that does not make up a state: what it applies is written in statements, and what it goes
back to was saved before. -/
def Call.Faithful (taken : List Snapshot) : Call → Prop
  | .apply operations => ∀ o ∈ operations, o.Written
  | .setState _ => False
  | .restore saved => saved ∈ taken
  | _ => True

/-- The sessions of a story that a host reaches, each with the snapshots taken on the way. -/
inductive Reached (story : Story) : List Snapshot → Session → Prop
  | build (draws : Draws) : Reached story [] (build story draws).session
  | save {taken : List Snapshot} {s : Session} (before : Reached story taken s) :
    Reached story (s.snapshot :: taken) s
  | call {taken : List Snapshot} {s : Session} (before : Reached story taken s) {c : Call}
    (faithful : c.Faithful taken) : Reached story taken (s.call c).session

/-! ### The writes of a turn -/

/-- A value that a turn writes under `global` by itself. -/
structure OwnWrite where
  state : State
  key : String
  value : Json

/-- What the write makes of the state. -/
def OwnWrite.made (w : OwnWrite) : Except StateError State :=
  w.state.setGlobal w.key w.value

/-- The writes of the next turn: the counter, and the flag when the first search finds nothing. -/
def turnWrites (s : Session) : List OwnWrite :=
  let s := s.leave
  ⟨s.state, turnKey, s.nextTurn⟩ ::
    match s.state.setGlobal turnKey s.nextTurn with
    | .error _ => []
    | .ok state =>
      match ({ s with state } : Session).choose with
      | .ok (none, s) =>
        if s.state.globalFlag noEventsKey then [] else [⟨s.state, noEventsKey, .bool true⟩]
      | _ => []

/-- The writes of a call. -/
def ownWrites (s : Session) : Call → List OwnWrite
  | .start => if s.current.isSome then [] else s.turnWrites
  | .next => s.turnWrites
  | .respond name =>
    match s.action? name with
    | none => []
    | some action =>
      match (s.apply action.operations).result with
      | .error _ => []
      | .ok () => (s.apply action.operations).session.turnWrites
  | _ => []

/-! ### What calls leave and fail with -/

/-- A session of a story in a well-formed state. -/
structure Sound (story : Story) (s : Session) : Prop where
  story : s.story = story
  state : s.state.WellFormed

/-- An error that one of some operations, or a condition of a story, gives in a well-formed state.
-/
inductive Arises (story : Story) (operations : List Operation) : StateError → Prop
  | operation {o : Operation} {d : State} {e : StateError} (mem : o ∈ operations)
    (state : d.WellFormed) (fails : d.apply o = .error e) : Arises story operations e
  | condition {c : Condition} {d : State} {e : StateError} (mem : c ∈ story.conditions)
    (state : d.WellFormed) (fails : c.holds d = .error e) : Arises story operations e

/-- An error of a call which, if the state fails it, arises from an operation or a condition. -/
def Accounted (story : Story) (operations : List Operation) (e : SessionError) : Prop :=
  ∀ cause, e = .state cause → Arises story operations cause

/-- A turn that leaves a sound session and, when the state fails it, does so for an operation or a
condition. -/
structure SoundTurn (story : Story) (operations : List Operation) (t : Turn) : Prop where
  session : t.session.Sound story
  error : ∀ e, t.result = .error e → Accounted story operations e

section

variable {story : Story} {operations : List Operation} {s : Session}

theorem Arises.mono {others : List Operation} (h : ∀ o ∈ operations, o ∈ others) {e : StateError}
    (he : Arises story operations e) : Arises story others e := by
  cases he with
  | operation mem state fails => exact .operation (h _ mem) state fails
  | condition mem state fails => exact .condition mem state fails

theorem SoundTurn.mono {others : List Operation} (h : ∀ o ∈ operations, o ∈ others) {t : Turn}
    (ht : SoundTurn story operations t) : SoundTurn story others t :=
  ⟨ht.session, fun e he cause hcause => (ht.error e he cause hcause).mono h⟩

theorem Accounted.state {cause : StateError} (h : Arises story operations cause) :
    Accounted story operations (.state cause) := by
  rintro _ ⟨rfl⟩
  exact h

theorem Accounted.other {e : SessionError} (h : ∀ cause, e ≠ .state cause) :
    Accounted story operations e :=
  fun cause hcause => absurd hcause (h cause)

theorem sound_fail (hs : s.Sound story) {e : SessionError} (he : Accounted story operations e)
    (shown : List Display) : SoundTurn story operations (s.fail e shown) := by
  refine ⟨hs, fun other hother => ?_⟩
  obtain rfl : e = other := Except.error.inj hother
  exact he

theorem sound_done (hs : s.Sound story) (shown : List Display) :
    SoundTurn story operations ⟨.ok (), s, shown⟩ :=
  ⟨hs, nofun⟩

/-- Operations leave a sound session, also when one of them fails. -/
theorem sound_apply (hs : s.Sound story) (ho : ∀ o ∈ operations, o.WellFormed) :
    SoundTurn story operations (s.apply operations) := by
  obtain ⟨hstate, herror⟩ := Operation.WellFormed.applyAll hs.state ho
  unfold apply
  split
  · rename_i state e happly
    rw [happly] at hstate herror
    obtain ⟨o, hmem, d, hd, hfails⟩ := herror e rfl
    have hleft : Sound story { s with state } := ⟨hs.story, hstate⟩
    exact sound_fail hleft (.state (.operation hmem hd hfails)) []
  · rename_i state happly
    rw [happly] at hstate
    have hleft : Sound story { s with state } := ⟨hs.story, hstate⟩
    exact sound_done hleft _

theorem arises_of_offeredOf (hs : s.Sound story) {actions : List (String × Action)}
    (hactions : ∀ entry ∈ actions, ∀ c, entry.2.condition = some c → c ∈ story.conditions)
    {e : StateError} (h : s.offeredOf actions = .error e) : Arises story operations e := by
  induction actions with
  | nil => exact absurd h nofun
  | cons entry rest ih =>
    obtain ⟨name, action⟩ := entry
    have htail : s.offeredOf rest = .error e → Arises story operations e :=
      ih fun other hother => hactions other (List.mem_cons_of_mem _ hother)
    rw [offeredOf] at h
    split at h
    · exact htail (Except.of_map_error h)
    · rename_i condition hcondition
      split at h
      · rename_i hholds
        obtain rfl := Except.error.inj h
        exact .condition (hactions (name, action) List.mem_cons_self condition hcondition) hs.state
          hholds
      · exact htail (Except.of_map_error h)
      · exact htail h

theorem sound_showEvent (hs : s.Sound story) {event : Event} (hevent : event ∈ story.events)
    (shown : List Display) : SoundTurn story operations (s.showEvent event shown) := by
  unfold showEvent
  split
  · rename_i hoffered
    refine sound_fail hs (.state (arises_of_offeredOf hs (fun entry hentry c hc => ?_) hoffered)) _
    exact Story.mem_conditions_of_action hevent hentry hc
  · exact sound_done hs _

/-- An event of a well-formed story is put on screen in a sound session. -/
theorem sound_moveTo (hstory : story.WellFormed) (hs : s.Sound story) (index : Nat) :
    SoundTurn story story.operations (s.moveTo index) := by
  unfold moveTo
  split
  · exact sound_fail hs (.other (by nofun)) []
  rename_i event hget
  rw [hs.story] at hget
  have hevent : event ∈ story.events := List.mem_of_getElem? hget
  have hmem : ∀ o ∈ event.onDisplay, o ∈ story.operations :=
    fun o ho => Story.mem_operations_of_display hevent ho
  have hcurrent : Sound story { s with current := some index } := ⟨hs.story, hs.state⟩
  have happly : SoundTurn story story.operations
      (apply { s with current := some index } event.onDisplay) :=
    (sound_apply hcurrent fun o ho => (hstory.operations o (hmem o ho)).wellFormed).mono hmem
  dsimp only
  split
  · exact happly
  · exact sound_showEvent happly.session hevent _

theorem arises_of_availableFrom (hs : s.Sound story) {gate : Gate} {events : List Event}
    (hevents : ∀ event ∈ events, event ∈ story.events) {index : Nat} {e : StateError}
    (h : s.availableFrom gate index events = .error e) : Arises story operations e := by
  induction events generalizing index with
  | nil => exact absurd h nofun
  | cons event rest ih =>
    have htail : ∀ {n}, s.availableFrom gate n rest = .error e → Arises story operations e :=
      fun hrest => ih (fun other hother => hevents other (List.mem_cons_of_mem _ hother)) hrest
    rw [availableFrom] at h
    split at h
    · exact htail h
    · rename_i trigger htrigger
      split at h
      · exact htail h
      · split at h
        · rename_i hholds
          obtain rfl := Except.error.inj h
          have hevent := hevents event List.mem_cons_self
          exact .condition (Story.mem_conditions_of_trigger hevent htrigger) hs.state hholds
        · exact htail h
        · exact htail (Except.of_map_error h)

/-- One search only draws; it fails for a condition. -/
theorem arises_of_choose (hs : s.Sound story) {e : StateError} (h : s.choose = .error e) :
    Arises story operations e := by
  have havailable : ∀ {gate}, s.available gate = .error e → Arises story operations e :=
    fun hgate => arises_of_availableFrom hs (fun event hevent => hs.story ▸ hevent) hgate
  unfold choose at h
  split at h
  · rename_i hhard
    exact havailable (Except.error.inj h ▸ hhard)
  · exact absurd h nofun
  · split at h
    · rename_i hsoft
      exact havailable (Except.error.inj h ▸ hsoft)
    · exact absurd h nofun

theorem sound_of_choose (hs : s.Sound story) {found : Option Nat} {t : Session}
    (h : s.choose = .ok (found, t)) : t.Sound story := by
  have hlottery : ∀ candidates, (s.lottery candidates).2.Sound story := by
    intro candidates
    unfold lottery
    split
    · exact hs
    · exact ⟨hs.story, hs.state⟩
  unfold choose at h
  split at h
  · exact absurd h nofun
  · obtain ⟨-, rfl⟩ := Prod.mk.inj (Except.ok.inj h)
    exact hs
  · split at h
    · exact absurd h nofun
    · rename_i candidates _
      have hcandidates := hlottery candidates
      rwa [Except.ok.inj h] at hcandidates

/-! ### Turns -/

/-- A value can be written under `global` in a sound session, which stays sound. -/
theorem Sound.setGlobal (hs : s.Sound story) (key : String) {value : Json} (hvalue : value.Proper) :
    ∃ state, s.state.setGlobal key value = .ok state ∧ Sound story { s with state } := by
  obtain ⟨state, hset, hstate⟩ := hs.state.setGlobal key hvalue
  exact ⟨state, hset, hs.story, hstate⟩

theorem Sound.leave (hs : s.Sound story) : s.leave.Sound story := by
  unfold Session.leave
  split
  · split
    · exact hs
    · exact ⟨hs.story, hs.state⟩
  · exact hs

/-- The counter that is written is a number, or null when there is no next one. -/
theorem proper_nextTurn (s : Session) : s.nextTurn.Proper := by
  unfold nextTurn
  cases hnumber : Number.ofFloat? (s.turn + 1.0) with
  | none => exact .null
  | some n => exact proper_ofFloat hnumber

/-- A destination that is reached in a sound session, and fails for a condition at most. -/
def Destination.Sound (story : Story) (operations : List Operation) : Destination → Prop
  | .event origin _ => origin.Sound story
  | .nowhere left e => left.Sound story ∧ Accounted story operations e

theorem sound_lastDestination (hs : s.Sound story) :
    s.lastDestination.Sound story operations := by
  obtain ⟨state, hset, hflagged⟩ := hs.setGlobal noEventsKey (.bool true)
  unfold lastDestination
  split
  · exact ⟨hs, .other nofun⟩
  · rw [hset]
    dsimp only
    split
    · rename_i hchoose
      exact ⟨hflagged, .state (arises_of_choose hflagged hchoose)⟩
    · rename_i hchoose
      exact sound_of_choose hflagged hchoose
    · rename_i hchoose
      exact ⟨sound_of_choose hflagged hchoose, .other nofun⟩

theorem sound_firstDestination (hs : s.Sound story) :
    s.firstDestination.Sound story operations := by
  unfold firstDestination
  split
  · rename_i hchoose
    exact ⟨hs, .state (arises_of_choose hs hchoose)⟩
  · rename_i hchoose
    exact sound_of_choose hs hchoose
  · rename_i hchoose
    exact sound_lastDestination (sound_of_choose hs hchoose)

theorem sound_destination (hs : s.Sound story) : s.destination.Sound story operations := by
  obtain ⟨state, hset, hcounted⟩ := hs.leave.setGlobal turnKey (proper_nextTurn s.leave)
  unfold destination
  dsimp only
  rw [hset]
  exact sound_firstDestination hcounted

theorem sound_next (hstory : story.WellFormed) (hs : s.Sound story) :
    SoundTurn story story.operations s.next := by
  have hdestination : s.destination.Sound story story.operations := sound_destination hs
  rw [← turn_destination]
  cases hcase : s.destination with
  | event origin index =>
    rw [hcase] at hdestination
    exact sound_moveTo hstory hdestination index
  | nowhere left e =>
    rw [hcase] at hdestination
    exact sound_fail hdestination.1 hdestination.2 []

/-- The writes of a turn succeed. -/
theorem exists_made_of_turnWrites (hs : s.Sound story) :
    ∀ w ∈ s.turnWrites, ∃ d, w.made = .ok d := by
  obtain ⟨state, hset, hcounted⟩ := hs.leave.setGlobal turnKey (proper_nextTurn s.leave)
  unfold turnWrites
  dsimp only
  rw [hset]
  refine List.forall_mem_cons.2 ⟨⟨state, hset⟩, fun w hw => ?_⟩
  dsimp only at hw
  split at hw
  · rename_i t hchoose
    split at hw
    · exact absurd hw List.not_mem_nil
    · obtain rfl := List.mem_singleton.1 hw
      obtain ⟨flagged, hflagged, -⟩ :=
        (sound_of_choose hcounted hchoose).setGlobal noEventsKey (.bool true)
      exact ⟨flagged, hflagged⟩
  · exact absurd hw List.not_mem_nil

/-! ### Calls -/

theorem mem_of_action? {name : String} {action : Action} (h : s.action? name = some action) :
    ∃ event ∈ s.story.events, (name, action) ∈ event.actions := by
  obtain ⟨event, hevent, haction⟩ := Option.bind_eq_some_iff.1 h
  obtain ⟨index, -, hget⟩ := Option.bind_eq_some_iff.1 hevent
  rw [Event.action?] at haction
  exact ⟨event, List.mem_of_getElem? hget, Entries.mem_of_lookup haction⟩

/-- The operations of an action leave a sound session. -/
theorem sound_apply_action (hstory : story.WellFormed) (hs : s.Sound story) {name : String}
    {action : Action} (h : s.action? name = some action) :
    SoundTurn story story.operations (s.apply action.operations) := by
  obtain ⟨event, hevent, haction⟩ := mem_of_action? h
  rw [hs.story] at hevent
  have hmem : ∀ o ∈ action.operations, o ∈ story.operations :=
    fun o ho => Story.mem_operations_of_action hevent haction ho
  exact (sound_apply hs fun o ho => (hstory.operations o (hmem o ho)).wellFormed).mono hmem

theorem sound_respond (hstory : story.WellFormed) (hs : s.Sound story) (name : String) :
    SoundTurn story story.operations (s.respond name) := by
  rw [respond_eq]
  cases haction : s.action? name with
  | none => exact sound_fail hs (.other (by nofun)) []
  | some action =>
    have happly := sound_apply_action hstory hs haction
    dsimp only
    unfold play
    dsimp only
    split
    · exact happly
    · have hnext := sound_next hstory happly.session
      exact ⟨hnext.session, hnext.error⟩

theorem sound_redisplay (hs : s.Sound story) :
    SoundTurn story story.operations s.redisplay := by
  unfold redisplay
  dsimp only
  split
  · exact sound_done hs _
  · rename_i event hevent
    obtain ⟨index, -, hget⟩ := Option.bind_eq_some_iff.1 hevent
    rw [hs.story] at hget
    exact sound_showEvent hs (List.mem_of_getElem? hget) _

theorem sound_restore (hs : s.Sound story) {saved : Snapshot} (hsaved : saved.state.WellFormed) :
    SoundTurn story story.operations (s.restore saved) := by
  have hback : ∀ current, Sound story
      { s with state := saved.state, viewed := .ofList saved.viewed, current } :=
    fun _ => ⟨hs.story, hsaved⟩
  unfold restore
  dsimp only
  split
  · exact sound_done (hback none) []
  · split
    · exact sound_fail hs (.other (by nofun)) []
    · exact sound_done (hback _) []

theorem Call.Faithful.wellFormed {taken : List Snapshot} {c : Call} (hc : c.Faithful taken) :
    ∀ o ∈ c.operations, o.WellFormed := by
  cases c with
  | apply operations => exact fun o ho => (hc o ho).wellFormed
  | _ => exact fun o ho => absurd ho List.not_mem_nil

/-- Every faithful call makes a sound turn. -/
theorem sound_call (hstory : story.WellFormed) (hs : s.Sound story) {taken : List Snapshot}
    (htaken : ∀ saved ∈ taken, saved.state.WellFormed) {c : Call} (hc : c.Faithful taken) :
    SoundTurn story (story.operations ++ c.operations) (s.call c) := by
  have hmem : ∀ o ∈ story.operations, o ∈ story.operations ++ c.operations :=
    fun o ho => List.mem_append_left _ ho
  cases c with
  | start =>
    refine SoundTurn.mono hmem (?_ : SoundTurn story story.operations s.start)
    unfold start
    split
    · exact sound_fail hs (.other (by nofun)) []
    · exact sound_next hstory hs
  | next => exact (sound_next hstory hs).mono hmem
  | respond name => exact (sound_respond hstory hs name).mono hmem
  | moveTo index => exact (sound_moveTo hstory hs index).mono hmem
  | apply operations =>
    exact (sound_apply hs hc.wellFormed).mono fun o ho => List.mem_append_right _ ho
  | redisplay => exact (sound_redisplay hs).mono hmem
  | setState state => exact absurd hc id
  | restore saved => exact (sound_restore hs (htaken saved hc)).mono hmem

theorem exists_made_of_ownWrites (hstory : story.WellFormed) (hs : s.Sound story) (c : Call) :
    ∀ w ∈ s.ownWrites c, ∃ d, w.made = .ok d := by
  have hnone : ∀ w ∈ ([] : List OwnWrite), ∃ d, w.made = .ok d :=
    fun w hw => absurd hw List.not_mem_nil
  cases c with
  | start =>
    rw [ownWrites]
    split
    · exact hnone
    · exact exists_made_of_turnWrites hs
  | next => exact exists_made_of_turnWrites hs
  | respond name =>
    rw [ownWrites]
    split
    · exact hnone
    · rename_i action haction
      split
      · exact hnone
      · exact exists_made_of_turnWrites (sound_apply_action hstory hs haction).session
  | _ => exact hnone

/-! ### Runs -/

/-- Every session that is reached is sound, and so is what was saved on the way. -/
theorem Reached.sound (hstory : story.WellFormed) {taken : List Snapshot}
    (h : Reached story taken s) :
    s.Sound story ∧ ∀ saved ∈ taken, saved.state.WellFormed := by
  induction h with
  | build draws => exact ⟨⟨rfl, hstory.state⟩, fun _ hsaved => absurd hsaved List.not_mem_nil⟩
  | save _ ih => exact ⟨ih.1, List.forall_mem_cons.2 ⟨ih.1.state, ih.2⟩⟩
  | call _ faithful ih => exact ⟨(sound_call hstory ih.1 ih.2 faithful).session, ih.2⟩

/-- An error that arises in a well-formed state is an ordinary one, and says that an operand is
undefined only when the operand is an access. -/
theorem Arises.ordinary (hstory : story.WellFormed) (ho : ∀ o ∈ operations, o.WellFormed)
    {e : StateError} (h : Arises story operations e) :
    e.Ordinary ∧ ∀ operator target, e = .undefinedOperand operator target →
      ∃ o ∈ operations, o.operator = operator ∧ o.target = target ∧
        ∃ path, o.operand = .access path := by
  cases h with
  | @operation o d _ mem state fails =>
    have houtcome := (ho o mem).apply state
    rw [fails] at houtcome
    refine ⟨houtcome.1, fun operator target heq => ?_⟩
    obtain ⟨rfl, rfl, haccess⟩ := houtcome.2 operator target heq
    exact ⟨o, mem, rfl, rfl, haccess⟩
  | condition mem state fails =>
    obtain ⟨operator, shown, found, rfl⟩ :=
      Condition.isNoArray_of_holds state _ (hstory.conditions _ mem).wellFormed fails
    exact ⟨trivial, nofun⟩

end

/-- Whatever a host does with a compiled story, short of making up a state, its state keeps the
three roots, each an object, and only finite numbers.  The turns' own writes succeed; a call that
the state fails, it fails for an operation or a condition, never for an access without segments or
for a document that is no object, and for an undefined operand only when the operand is an access.
-/
theorem wellFormed_of_reached {files : Files Id} {root : String} {layout : Layout} {story : Story}
    (hstory : (Bundle.story files root layout).run = .ok story) {taken : List Snapshot}
    {s : Session} (hs : Reached story taken s) :
    s.state.WellFormed ∧ ∀ c : Call, c.Faithful taken →
      (∀ w ∈ s.ownWrites c, ∃ d, w.made = .ok d) ∧
      ∀ e, (s.call c).result = .error (.state e) →
        Arises story (story.operations ++ c.operations) e ∧
        e ≠ .emptyAccess ∧ (∀ kind, e ≠ .notAnObject kind) ∧
        ∀ operator target, e = .undefinedOperand operator target →
          ∃ o ∈ story.operations ++ c.operations, o.operator = operator ∧ o.target = target ∧
            ∃ path, o.operand = .access path := by
  have hwell : story.WellFormed := Bundle.wellFormed_story hstory
  obtain ⟨hsound, htaken⟩ := hs.sound hwell
  refine ⟨hsound.state, fun c hc => ⟨exists_made_of_ownWrites hwell hsound c, fun e he => ?_⟩⟩
  have harises : Arises story (story.operations ++ c.operations) e :=
    (sound_call hwell hsound htaken hc).error _ he e rfl
  have hoperations : ∀ o ∈ story.operations ++ c.operations, o.WellFormed := by
    intro o ho
    rcases List.mem_append.1 ho with ho | ho
    · exact (hwell.operations o ho).wellFormed
    · exact hc.wellFormed o ho
  obtain ⟨hordinary, hundefined⟩ := harises.ordinary hwell hoperations
  refine ⟨harises, ?_, ?_, hundefined⟩
  · rintro rfl
    exact hordinary
  · rintro kind rfl
    exact hordinary

/-- A session of `Bundle.misleadingStory` whose first turn has found no event. -/
def stranded : Session :=
  ((build Bundle.misleadingStory ⟨fun _ => 0, 0⟩).session.call .start).session

/-- `g.x = g.y`, with nothing at `g.y`. -/
def copyMissing : Operation :=
  ⟨⟨["global", "x"]⟩, .set, .access ⟨["global", "y"]⟩⟩

/-- A start that finds no event leaves the flag in a well-formed state, and an operation that fails
there fails for its access. -/
theorem wellFormed_stranded :
    (Bundle.story Bundle.misleadingFolder.files "story" .standard).run =
        .ok Bundle.misleadingStory ∧
      Reached Bundle.misleadingStory [] stranded ∧ stranded.state.WellFormed ∧
      stranded.state.globalFlag noEventsKey = true ∧
      (Call.apply [copyMissing]).Faithful [] ∧
      (stranded.call (.apply [copyMissing])).result =
        .error (.state (.undefinedOperand .set ⟨["global", "x"]⟩)) ∧
      Arises Bundle.misleadingStory (Bundle.misleadingStory.operations ++ [copyMissing])
        (.undefinedOperand .set ⟨["global", "x"]⟩) := by
  have hreached : Reached Bundle.misleadingStory [] stranded := (Reached.build _).call trivial
  have hwritten : (Call.apply [copyMissing]).Faithful [] := by
    intro o ho
    rw [List.mem_singleton.1 ho]
    exact ⟨none, "g.x = g.y", by decide +kernel⟩
  have hfails : (stranded.call (.apply [copyMissing])).result =
      .error (.state (.undefinedOperand .set ⟨["global", "x"]⟩)) := by
    decide +kernel
  obtain ⟨hstate, hcalls⟩ := wellFormed_of_reached Bundle.story_misleadingFolder hreached
  exact ⟨Bundle.story_misleadingFolder, hreached, hstate, by decide +kernel, hwritten, hfails,
    ((hcalls _ hwritten).2 _ hfails).1⟩

end Narrative.Session
