import Mathlib.Tactic.Common
import Narrative.Proofs.Session.Offer
import Narrative.Proofs.Session.Selection

/-!
# What is on screen

Each call shows the resources behind its last write to them, and the event it stops at behind all
writes.  So while no call fails for the state, the resources that were shown last are those of the
document, and an event that is put on screen is shown with exactly the actions that are offered.
-/

namespace Narrative

/-! ### What was shown last -/

namespace Display

/-- The values of the resources, when they are what is shown. -/
def resources? : Display → Option (List (String × Json))
  | resources values => some values
  | event _ _ => none

/-- The text of an event with its actions, when an event is shown. -/
def event? : Display → Option (String × List String)
  | resources _ => none
  | event description actions => some (description, actions)

/-- The values of the resources that were shown last. -/
def lastResources (shown : List Display) : Option (List (String × Json)) :=
  (shown.filterMap resources?).getLast?

/-- The event that was shown last, with its actions. -/
def lastEvent (shown : List Display) : Option (String × List String) :=
  (shown.filterMap event?).getLast?

theorem lastResources_append (before after : List Display) :
    lastResources (before ++ after) = (lastResources after).or (lastResources before) := by
  simp [lastResources, List.getLast?_append]

theorem lastEvent_append (before after : List Display) :
    lastEvent (before ++ after) = (lastEvent after).or (lastEvent before) := by
  simp [lastEvent, List.getLast?_append]

end Display

namespace Session

open Display

/-! ### Resources beside the turn counter -/

/-- One search changes nothing in the document. -/
theorem state_choose {s t : Session} {found : Option Nat} (h : s.choose = .ok (found, t)) :
    t.state = s.state := by
  have hlottery : ∀ candidates, (s.lottery candidates).2.state = s.state := by
    intro candidates
    unfold lottery
    split <;> rfl
  unfold choose at h
  split at h
  · exact absurd h nofun
  · obtain ⟨-, rfl⟩ := Prod.mk.inj (Except.ok.inj h)
    rfl
  · split at h
    · exact absurd h nofun
    · rename_i candidates _
      have hcandidates := hlottery candidates
      rwa [Except.ok.inj h] at hcandidates

/-- The state in which the searches of a turn end. -/
def Destination.state : Destination → State
  | event origin _ => origin.state
  | nowhere left _ => left.state

/-- The second search writes nothing, or the flag. -/
theorem state_lastDestination (s : Session) :
    s.lastDestination.state = s.state ∨
      s.state.setGlobal noEventsKey (.bool true) = .ok s.lastDestination.state := by
  unfold lastDestination
  split
  · exact Or.inl rfl
  · split
    · exact Or.inl rfl
    · rename_i state hflag
      refine Or.inr ?_
      rw [hflag]
      dsimp only
      split
      · rfl
      · rename_i hchoose
        rw [Destination.state, state_choose hchoose]
      · rename_i hchoose
        rw [Destination.state, state_choose hchoose]

theorem state_firstDestination (s : Session) :
    s.firstDestination.state = s.state ∨
      s.state.setGlobal noEventsKey (.bool true) = .ok s.firstDestination.state := by
  unfold firstDestination
  split
  · exact Or.inl rfl
  · rename_i hchoose
    exact Or.inl (state_choose hchoose)
  · rename_i hchoose
    rw [← state_choose hchoose]
    exact state_lastDestination _

/-- The searches of a turn write nothing but the turn counter, and then perhaps the flag. -/
theorem state_destination (s : Session) :
    match s.state.setGlobal turnKey s.leave.nextTurn with
    | .error _ => s.destination.state = s.state
    | .ok t => s.destination.state = t ∨
        t.setGlobal noEventsKey (.bool true) = .ok s.destination.state := by
  unfold destination
  dsimp only
  rw [← state_leave s]
  cases s.leave.state.setGlobal turnKey s.leave.nextTurn with
  | error e => rfl
  | ok t => exact state_firstDestination _

theorem resources_destination (s : Session) :
    s.destination.state.resources = s.state.resources := by
  have hstate := state_destination s
  cases hturn : s.state.setGlobal turnKey s.leave.nextTurn with
  | error e =>
    rw [hturn] at hstate
    rw [hstate]
  | ok t =>
    rw [hturn] at hstate
    rw [← State.resources_setGlobal hturn]
    rcases hstate with hsame | hflag
    · rw [hsame]
    · exact State.resources_setGlobal hflag

/-! ### Turns on screen -/

/-- Behind `values` on screen, what a turn shows of the resources is what it leaves. -/
def InStep (values : List (String × Json)) (t : Turn) : Prop :=
  (lastResources t.shown).getD values = t.session.state.resources

/-- The result of a call is not an error of the state. -/
def Unfailing (result : Except SessionError Unit) : Prop :=
  ∀ cause, result ≠ .error (.state cause)

/-- An event is on screen, and what was shown last of the events is its text with the actions that
are offered. -/
def Presented (t : Turn) : Prop :=
  ∃ e names, t.session.currentEvent? = some e ∧ t.session.offered = .ok names ∧
    lastEvent t.shown = some (e.description, names)

/-- A turn, behind `values` on screen, keeps the resources in step unless it fails for the state, and
presents its event when it succeeds. -/
structure OnScreen (values : List (String × Json)) (t : Turn) : Prop where
  resources : Unfailing t.result → InStep values t
  event : t.result = .ok () → Presented t

variable {s : Session} {values : List (String × Json)}

theorem onScreen_fail (h : values = s.state.resources) (e : SessionError) :
    OnScreen values (s.fail e []) :=
  ⟨fun _ => h, nofun⟩

theorem inStep_apply {operations : List Operation} (h : (s.apply operations).result = .ok ()) :
    InStep values (s.apply operations) := by
  unfold apply at h ⊢
  split
  · rename_i happly
    rw [happly] at h
    exact absurd h nofun
  · rfl

/-- Operations fail for nothing but the state, and then nothing is promised. -/
theorem onScreen_of_apply {operations : List Operation} {e : SessionError}
    (h : (s.apply operations).result = .error e) : OnScreen values (s.apply operations) := by
  obtain ⟨cause, rfl⟩ := result_apply h
  exact ⟨fun hunfailing => absurd h (hunfailing cause), fun hok => absurd (hok.symm.trans h) nofun⟩

theorem onScreen_showEvent {event : Event} {shown : List Display}
    (hshown : InStep values ⟨.ok (), s, shown⟩) (hevent : s.currentEvent? = some event) :
    OnScreen values (s.showEvent event shown) := by
  unfold showEvent
  split
  · exact ⟨fun _ => hshown, nofun⟩
  · rename_i names hoffered
    have hresources : InStep values ⟨.ok (), s, shown ++ [.event event.description names]⟩ := by
      unfold InStep
      rw [lastResources_append]
      exact hshown
    have hnames : s.offered = .ok names := by
      rw [offered, hevent]
      exact hoffered
    have hlast : lastEvent (shown ++ [.event event.description names]) =
        some (event.description, names) := by
      rw [lastEvent_append]
      rfl
    exact ⟨fun _ => hresources, fun _ => ⟨event, names, hevent, hnames, hlast⟩⟩

theorem onScreen_moveTo {index : Nat} (hvalues : values = s.state.resources) :
    OnScreen values (s.moveTo index) := by
  unfold moveTo
  split
  · exact onScreen_fail hvalues _
  · rename_i event hevent
    have hkept := unmoved_apply ({ s with current := some index } : Session) event.onDisplay
    dsimp only
    split
    · rename_i hresult
      exact onScreen_of_apply hresult
    · rename_i hresult
      refine onScreen_showEvent (inStep_apply hresult) ?_
      rw [currentEvent?, hkept.current, hkept.story]
      exact hevent

theorem onScreen_next (hvalues : values = s.state.resources) : OnScreen values s.next := by
  have hresources := resources_destination s
  rw [← turn_destination]
  cases hdestination : s.destination with
  | event origin index =>
    rw [hdestination] at hresources
    exact onScreen_moveTo (hvalues.trans hresources.symm)
  | nowhere left e =>
    rw [hdestination] at hresources
    exact onScreen_fail (hvalues.trans hresources.symm) e

theorem onScreen_start (hvalues : values = s.state.resources) : OnScreen values s.start := by
  unfold start
  split
  · exact onScreen_fail hvalues _
  · exact onScreen_next hvalues

/-- An action shows the resources behind its operations, and what the next turn shows behind that. -/
theorem onScreen_play (action : Action) : OnScreen values (s.play action) := by
  unfold play
  dsimp only
  split
  · rename_i hresult
    exact onScreen_of_apply hresult
  · rename_i hresult
    have happly : InStep values (s.apply action.operations) := inStep_apply hresult
    obtain ⟨hresources, hevent⟩ :=
      onScreen_next (rfl : _ = (s.apply action.operations).session.state.resources)
    refine ⟨fun h => ?_, fun h => ?_⟩
    · unfold InStep
      dsimp only
      rw [lastResources_append, Option.getD_or, happly]
      exact hresources h
    · obtain ⟨e, names, he, hnames, hlast⟩ := hevent h
      refine ⟨e, names, he, hnames, ?_⟩
      rw [lastEvent_append, hlast]
      rfl

theorem onScreen_respond {name : String} (hvalues : values = s.state.resources) :
    OnScreen values (s.respond name) := by
  rw [respond_eq]
  cases s.action? name with
  | none => exact onScreen_fail hvalues _
  | some action => exact onScreen_play action

theorem onScreen_redisplay {event : Event} (hevent : s.currentEvent? = some event) :
    OnScreen values s.redisplay := by
  unfold redisplay
  rw [hevent]
  exact onScreen_showEvent rfl hevent

/-! ### Calls on screen -/

/-- A call that shows what it does: all but going back to a snapshot. -/
def Call.Shown : Call → Prop
  | .restore _ => False
  | _ => True

theorem inStep_call {c : Call} (hc : c.Shown) (hvalues : values = s.state.resources)
    (h : Unfailing (s.call c).result) : InStep values (s.call c) := by
  cases c with
  | start => exact (onScreen_start hvalues).resources h
  | next => exact (onScreen_next hvalues).resources h
  | respond name => exact (onScreen_respond hvalues).resources h
  | moveTo index => exact (onScreen_moveTo hvalues).resources h
  | apply operations =>
    cases hresult : (s.apply operations).result with
    | error e => exact (onScreen_of_apply hresult).resources h
    | ok u => exact inStep_apply hresult
  | redisplay =>
    cases hevent : s.currentEvent? with
    | none =>
      rw [call, redisplay, hevent]
      rfl
    | some event => exact (onScreen_redisplay hevent).resources h
  | setState state => rfl
  | restore saved => exact absurd hc id

/-- The calls that end with an event on screen when they succeed. -/
def Call.Presents (s : Session) : Call → Prop
  | .start | .next | .respond _ | .moveTo _ => True
  | .redisplay => s.currentEvent? ≠ none
  | _ => False

theorem presented_call {c : Call} (hc : c.Presents s) (h : (s.call c).result = .ok ()) :
    Presented (s.call c) := by
  cases c with
  | start => exact (onScreen_start rfl).event h
  | next => exact (onScreen_next rfl).event h
  | respond name => exact (onScreen_respond rfl).event h
  | moveTo index => exact (onScreen_moveTo rfl).event h
  | redisplay =>
    obtain ⟨event, hevent⟩ := Option.ne_none_iff_exists'.1 hc
    have hscreen : OnScreen [] s.redisplay := onScreen_redisplay hevent
    exact hscreen.event h
  | apply operations => exact absurd hc id
  | setState state => exact absurd hc id
  | restore saved => exact absurd hc id

/-! ### Runs on screen -/

theorem observations_append (s : Session) (before after : List Call) :
    s.observations (before ++ after) =
      s.observations before ++ (s.run before).observations after := by
  induction before generalizing s with
  | nil => rfl
  | cons c before ih =>
    have hrun : s.run (c :: before) = (s.call c).session.run before := rfl
    rw [List.cons_append, observations, observations, ih, hrun, List.cons_append]

/-- What a run of calls shows, in order. -/
def screen (s : Session) (calls : List Call) : List Display :=
  (s.observations calls).flatMap Observation.shown

theorem screen_cons (s : Session) (c : Call) (calls : List Call) :
    s.screen (c :: calls) = (s.call c).shown ++ (s.call c).session.screen calls :=
  rfl

theorem screen_append (s : Session) (before after : List Call) :
    s.screen (before ++ after) = s.screen before ++ (s.run before).screen after := by
  rw [screen, observations_append, List.flatMap_append]
  rfl

/-- Behind the resources of the document, a run of calls keeps those on screen in step with it. -/
theorem inStep_run {calls : List Call} (hcalls : ∀ c ∈ calls, c.Shown)
    (hvalues : values = s.state.resources)
    (hresults : ∀ o ∈ s.observations calls, Unfailing o.result) :
    (lastResources (s.screen calls)).getD values = (s.run calls).state.resources := by
  induction calls generalizing s values with
  | nil => exact hvalues
  | cons c calls ih =>
    obtain ⟨hfirst, hlater⟩ := List.forall_mem_cons.1 hresults
    have hcall : InStep values (s.call c) := inStep_call (hcalls c List.mem_cons_self) hvalues hfirst
    have hrun := ih (fun c hc => hcalls c (List.mem_cons_of_mem _ hc)) hcall hlater
    -- what the later calls show goes before what the first one shows
    rw [screen_cons, lastResources_append, Option.getD_or]
    exact hrun

/-- While no call fails for the state, the resources on screen are those of the document at every
point of a run.  Behind a call that succeeds there and has to show an event, what is on screen is the
event with the actions that it offers. -/
theorem screen_matches (story : Story) (draws : Draws) {calls : List Call}
    (hcalls : ∀ c ∈ calls, c.Shown)
    (hresults : ∀ o ∈ (build story draws).session.observations calls, Unfailing o.result) :
    let built := build story draws
    ∀ before, before <+: calls →
      let s := built.session.run before
      lastResources (built.shown ++ built.session.screen before) = some s.state.resources ∧
        ∀ c : Call, c.Presents s → (s.call c).result = .ok () →
          ∃ e names, (s.call c).session.currentEvent? = some e ∧
            (s.call c).session.offered = .ok names ∧
            lastEvent (built.shown ++ built.session.screen (before ++ [c])) =
              some (e.description, names) := by
  rintro built before ⟨after, rfl⟩
  intro s
  refine ⟨?_, ?_⟩
  · have hbefore : ∀ c ∈ before, c.Shown := fun c hc => hcalls c (List.mem_append_left _ hc)
    have hunfailing : ∀ o ∈ built.session.observations before, Unfailing o.result := by
      intro o ho
      refine hresults o ?_
      rw [observations_append]
      exact List.mem_append_left _ ho
    have hrun := inStep_run hbefore rfl hunfailing
    have hbuilt : lastResources built.shown = some built.session.state.resources := rfl
    rw [lastResources_append, hbuilt, Option.or_some, hrun]
  · intro c hc hresult
    obtain ⟨e, names, he, hnames, hlast⟩ := presented_call hc hresult
    refine ⟨e, names, he, hnames, ?_⟩
    have hscreen : s.screen [c] = (s.call c).shown := by
      rw [screen_cons]
      exact List.append_nil _
    rw [screen_append, hscreen, lastEvent_append, lastEvent_append, hlast]
    rfl

/-- Starting twice, which fails, and buying at the market of `poorBuyer`. -/
def purchase : List Call :=
  [.start, .start, .respond "Buy"]

/-- Behind the purchase the ten coins that are owed are on screen, and the market is shown again
with the action that it offers then. -/
theorem screen_purchase :
    let built := build poorBuyer (.ofList [])
    (∀ c ∈ purchase, c.Shown) ∧
      (∀ o ∈ built.session.observations purchase, Unfailing o.result) ∧
      lastResources (built.shown ++ built.session.screen purchase) =
        some [("coins", .num (.int (-10)))] ∧
      Call.redisplay.Presents (built.session.run purchase) ∧
      ((built.session.run purchase).call .redisplay).result = .ok () ∧
      lastEvent (built.shown ++ built.session.screen (purchase ++ [.redisplay])) =
        some ("Market", ["Leave"]) := by
  intro built
  have hcalls : ∀ c ∈ purchase, c.Shown := by
    simp [purchase, Call.Shown]
  have hresults : (built.session.observations purchase).map Observation.result =
      [.ok (), .error .alreadyStarted, .ok ()] := by
    decide +kernel
  have hunfailing : ∀ o ∈ built.session.observations purchase, Unfailing o.result := by
    intro o ho cause hcause
    have hmem := List.mem_map_of_mem (f := Observation.result) ho
    rw [hresults, hcause] at hmem
    simp at hmem
  have hevent : (built.session.run purchase).currentEvent? = some market := by decide +kernel
  have hpresents : Call.redisplay.Presents (built.session.run purchase) := by
    intro hnone
    exact absurd (hnone.symm.trans hevent) nofun
  have hredisplay : ((built.session.run purchase).call .redisplay).result = .ok () := by
    decide +kernel
  obtain ⟨hresources, hcall⟩ :=
    screen_matches poorBuyer (.ofList []) hcalls hunfailing purchase List.prefix_rfl
  obtain ⟨e, names, he, hnames, hlast⟩ := hcall .redisplay hpresents hredisplay
  have hmarket : ((built.session.run purchase).call .redisplay).session.currentEvent? =
      some market := by
    decide +kernel
  have hoffered : ((built.session.run purchase).call .redisplay).session.offered =
      .ok ["Leave"] := by
    decide +kernel
  obtain rfl : market = e := Option.some.inj (hmarket.symm.trans he)
  obtain rfl : ["Leave"] = names := Except.ok.inj (hoffered.symm.trans hnames)
  refine ⟨hcalls, hunfailing, hresources.trans ?_, hpresents, hredisplay, hlast⟩
  decide +kernel

end Session

end Narrative
