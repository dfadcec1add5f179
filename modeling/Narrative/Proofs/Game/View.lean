import Mathlib.Data.List.Induction
import Mathlib.Tactic.Common
import Narrative.Game
import Narrative.Proofs.Session.Once
import Narrative.Proofs.Session.Restore
import Narrative.Proofs.Session.Screen

/-!
# What a view tells

A view is drawn from what the session of a game has shown last.  Its resources are those of the
document, also behind calls that have failed, and the event and its actions are those that a turn
has arrived at.  Only going back takes the end of a story off the screen, and going back to a
snapshot without an event takes nothing else off it.
-/

namespace Narrative.Game

open Session Display

/-! ### Moves -/

/-- A call on a game. -/
inductive Move where
  | start
  | respond (action : String)
  | setState (state : State)
  | restore (saved : Snapshot)

/-- The result of a move and the game that it leaves. -/
def play (g : Game) : Move → Except SessionError Unit × Game
  | .start => g.start
  | .respond action => g.respond action
  | .setState state => (.ok (), g.setState state)
  | .restore saved => g.restore saved

/-- The game behind a run of moves, each of which may fail. -/
def run (g : Game) (moves : List Move) : Game :=
  moves.foldl (fun g m => (g.play m).2) g

theorem run_concat (g : Game) (moves : List Move) (m : Move) :
    g.run (moves ++ [m]) = ((g.run moves).play m).2 :=
  List.foldl_append

/-- A move that gives a view back. -/
def Move.Shown : Move → Prop
  | .setState _ => False
  | _ => True

/-- A move whose turn finds no event. -/
def EndsBy (g : Game) : Move → Prop
  | .start => g.session.start.result = .error .noEventsAvailable
  | .respond action => (g.session.respond action).result = .error .noEventsAvailable
  | _ => False

/-- A move that goes back to a snapshot. -/
def BackBy (g : Game) : Move → Prop
  | .restore saved => (g.session.restore saved).result = .ok ()
  | _ => False

/-- Some turn of a run of moves has found no event, and no move behind it has gone back. -/
inductive Over (g : Game) : List Move → Prop
  | ends {moves : List Move} {m : Move} (h : (g.run moves).EndsBy m) : Over g (moves ++ [m])
  | goesOn {moves : List Move} {m : Move} (h : Over g moves) (hback : ¬ (g.run moves).BackBy m) :
    Over g (moves ++ [m])

/-! ### Drawing -/

/-- The resources of a story on screen, with their values. -/
def drawn (story : Story) (values : List (String × Json)) : List Shown :=
  story.resources.map fun entry => View.showResource values entry.1 entry.2

/-- A view keeps the last event and the last resources of all that was shown. -/
theorem foldl_update (story : Story) (shown : List Display) (v : View) :
    shown.foldl (fun v d => v.update story d) v =
      { description := ((lastEvent shown).map Prod.fst).getD v.description
        actions := ((lastEvent shown).map Prod.snd).getD v.actions
        resources := ((lastResources shown).map (drawn story)).getD v.resources
        ended := v.ended } := by
  induction shown generalizing v with
  | nil => rfl
  | cons d rest ih =>
    have hevent : lastEvent (d :: rest) = (lastEvent rest).or (lastEvent [d]) :=
      lastEvent_append [d] rest
    have hresources : lastResources (d :: rest) = (lastResources rest).or (lastResources [d]) :=
      lastResources_append [d] rest
    rw [List.foldl_cons, ih, hevent, hresources]
    cases d with
    | resources values =>
      have hnone : lastEvent [.resources values] = none := rfl
      have hsome : lastResources [.resources values] = some values := rfl
      rw [hnone, hsome]
      cases lastResources rest <;> simp [View.update, drawn]
    | event description actions =>
      have hsome : lastEvent [.event description actions] = some (description, actions) := rfl
      have hnone : lastResources [.event description actions] = none := rfl
      rw [hnone, hsome]
      cases lastEvent rest <;> simp [View.update]

theorem watch_eq (v : View) (t : Turn) :
    watch v t =
      { description := ((lastEvent t.shown).map Prod.fst).getD v.description
        actions := ((lastEvent t.shown).map Prod.snd).getD v.actions
        resources := ((lastResources t.shown).map (drawn t.session.story)).getD v.resources
        ended := v.ended } :=
  foldl_update t.session.story t.shown v

section Finish

variable {v : View} {t : Turn}

theorem session_finish (v : View) (t : Turn) : (finish v t).2.session = t.session := by
  unfold finish
  dsimp only
  split <;> rfl

theorem resources_finish (v : View) (t : Turn) : (finish v t).2.view.resources =
    ((lastResources t.shown).map (drawn t.session.story)).getD v.resources := by
  unfold finish
  rw [watch_eq]
  dsimp only
  split <;> rfl

/-- A view is over when it was before or the turn finds no event. -/
theorem ended_finish : (finish v t).2.view.ended = true ↔
    t.result = .error .noEventsAvailable ∨ v.ended = true := by
  unfold finish
  rw [watch_eq]
  dsimp only
  split
  · rename_i hresult
    simp [hresult]
  · rename_i hresult
    simp [hresult]
  · rename_i e hother hresult
    have hne : e ≠ .noEventsAvailable := hother
    simp [hresult, hne]

theorem result_finish (h : (finish v t).1 = .ok ()) :
    t.result = .ok () ∨ t.result = .error .noEventsAvailable := by
  unfold finish at h
  dsimp only at h
  split at h
  · rename_i hresult
    exact Or.inl hresult
  · rename_i hresult
    exact Or.inr hresult
  · exact absurd h nofun

theorem result_finish_of_error {e : SessionError} (h : t.result = .error e)
    (hne : e ≠ .noEventsAvailable) : (finish v t).1 ≠ .ok () := by
  intro hok
  rcases result_finish hok with hresult | hresult
  · exact absurd (hresult.symm.trans h) nofun
  · exact hne (Except.error.inj (h.symm.trans hresult))

theorem unfailing_of_finish (h : (finish v t).1 = .ok ()) : Unfailing t.result :=
  fun _ hcause => result_finish_of_error hcause nofun h

/-- A turn that finds no event leaves no actions on screen. -/
theorem actions_finish_of_none (h : t.result = .error .noEventsAvailable) :
    (finish v t).2.view.actions = [] := by
  unfold finish
  rw [h]

end Finish

/-! ### Resources on screen -/

/-- The resources on screen are those of the document. -/
def InStep (g : Game) : Prop :=
  g.view.resources = drawn g.session.story g.session.state.resources

/-- The resources may only be out of step while an event is on screen. -/
def Kept (g : Game) : Prop :=
  g.session.currentEvent? = none → g.InStep

/-- A turn in step leaves a game in step. -/
theorem inStep_finish {v : View} {t : Turn} {values : List (String × Json)}
    (hvalues : v.resources = drawn t.session.story values) (h : Session.InStep values t) :
    (finish v t).2.InStep := by
  unfold InStep
  rw [resources_finish, session_finish, ← h, hvalues]
  cases lastResources t.shown <;> rfl

/-- A turn that shows the resources it leaves does so on any view. -/
theorem inStep_finish_of_shown {v : View} {t : Turn}
    (h : lastResources t.shown = some t.session.state.resources) : (finish v t).2.InStep := by
  unfold InStep
  rw [resources_finish, session_finish, h]
  rfl

theorem lastResources_apply {s : Session} {operations : List Operation}
    (h : (s.apply operations).result = .ok ()) :
    lastResources (s.apply operations).shown =
      some (s.apply operations).session.state.resources := by
  unfold Session.apply at h ⊢
  split
  · rename_i hfailed
    rw [hfailed] at h
    exact absurd h nofun
  · rfl

/-- An answer always shows the resources behind its operations. -/
theorem lastResources_play {s : Session} {action : Action} (h : Unfailing (s.play action).result) :
    lastResources (s.play action).shown = some (s.play action).session.state.resources := by
  unfold Session.play at h ⊢
  dsimp only at h ⊢
  cases hresult : (s.apply action.operations).result with
  | error e =>
    obtain ⟨cause, rfl⟩ := result_apply hresult
    rw [hresult] at h
    exact absurd hresult (h cause)
  | ok u =>
    rw [hresult] at h
    have hnext := (onScreen_next
      (rfl : _ = (s.apply action.operations).session.state.resources)).resources h
    dsimp only
    rw [lastResources_append, lastResources_apply hresult, Option.or_some]
    exact congrArg some hnext

/-- What is shown once more is in step with the document, also when the event cannot be shown. -/
theorem lastResources_redisplay (s : Session) :
    lastResources s.redisplay.shown = some s.redisplay.session.state.resources := by
  unfold redisplay
  dsimp only
  split
  · rfl
  · unfold showEvent
    split <;> rfl

/-- A turn that began with no event on screen, and has changed and shown nothing of what is. -/
structure Idle (s : Session) (t : Turn) : Prop where
  event : s.currentEvent? = none
  resources : t.session.state.resources = s.state.resources
  shown : t.shown = []

theorem currentEvent_of_unmoved {s t : Session} (h : s.Unmoved t) :
    t.currentEvent? = s.currentEvent? := by
  rw [currentEvent?, currentEvent?, h.current, h.story]

theorem idle_fail {s : Session} (h : s.currentEvent? = none) (e : SessionError) :
    Idle s (s.fail e []) :=
  ⟨h, rfl, rfl⟩

/-- A turn that leaves no event on screen has not had one either. -/
theorem idle_next {s : Session} (h : s.next.session.currentEvent? = none) : Idle s s.next := by
  have hfrom := from_destination s
  have hturn := turn_destination s
  have hresources := resources_destination s
  cases hdestination : s.destination with
  | event origin index =>
    rw [hdestination] at hfrom hturn
    obtain ⟨hunmoved, e, he, -⟩ := hfrom
    rw [← hunmoved.story] at he
    have hmoved := unmoved_moveTo (List.getElem?_eq_some_iff.1 he).1
    rw [← hturn] at h
    have hevent : origin.story.events[index]? = none :=
      (currentEvent_of_unmoved hmoved).symm.trans h
    exact absurd (hevent.symm.trans he) nofun
  | nowhere left e =>
    rw [hdestination] at hfrom hturn hresources
    rw [← hturn] at h ⊢
    have hleave : s.leave.currentEvent? = s.currentEvent? := by
      rw [currentEvent?, currentEvent?, current_leave, (continues_leave s).story]
    exact ⟨hleave ▸ (currentEvent_of_unmoved hfrom.1).symm.trans h, hresources, rfl⟩

theorem idle_start {s : Session} (h : s.start.session.currentEvent? = none) :
    Idle s s.start := by
  unfold Session.start at h ⊢
  split
  · rename_i hcurrent
    rw [if_pos hcurrent] at h
    exact idle_fail h _
  · rename_i hcurrent
    rw [if_neg hcurrent] at h
    exact idle_next h

/-- An event on screen stays there, or another one takes its place, however the answer ends. -/
theorem idle_respond {s : Session} {action : String}
    (h : (s.respond action).session.currentEvent? = none) : Idle s (s.respond action) := by
  have hrespond := respond_eq s action
  cases haction : s.action? action with
  | none =>
    rw [haction] at hrespond
    rw [hrespond] at h ⊢
    exact idle_fail h _
  | some a =>
    rw [haction] at hrespond
    rw [hrespond, session_play] at h
    have happlied := currentEvent_of_unmoved (unmoved_apply s a.operations)
    have hnone : s.currentEvent? = none := by
      cases hresult : (s.apply a.operations).result with
      | error e =>
        rw [hresult] at h
        exact happlied.symm.trans h
      | ok u =>
        rw [hresult] at h
        exact happlied.symm.trans (idle_next h).event
    rw [Session.action?, hnone] at haction
    cases haction

theorem kept_finish {v : View} {s : Session} {t : Turn}
    (hview : s.currentEvent? = none → v.resources = drawn s.story s.state.resources)
    (hstory : t.session.story = s.story) (hidle : t.session.currentEvent? = none → Idle s t) :
    (finish v t).2.Kept := by
  intro hnone
  rw [session_finish] at hnone
  obtain ⟨hevent, hresources, hshown⟩ := hidle hnone
  unfold InStep
  rw [resources_finish, session_finish, hshown, hstory, hresources]
  exact hview hevent

theorem redisplay_ne_noEventsAvailable (s : Session) :
    s.redisplay.result ≠ .error .noEventsAvailable := by
  intro h
  unfold redisplay at h
  dsimp only at h
  split at h
  · exact absurd h nofun
  · obtain ⟨cause, hcause⟩ := result_showEvent h
    exact absurd hcause nofun

/-- A snapshot that is refused changes nothing. -/
theorem session_restore_of_error {s : Session} {saved : Snapshot} {e : SessionError}
    (h : (s.restore saved).result = .error e) : (s.restore saved).session = s := by
  by_cases hlacks : ∃ slug, s.Lacks saved slug
  · obtain ⟨slug, hslug⟩ := hlacks
    rw [restore_of_lacks hslug]
    rfl
  · obtain ⟨current, hrestore, -⟩ := restore_of_not_lacks fun slug hslug => hlacks ⟨slug, hslug⟩
    rw [hrestore] at h
    exact absurd h nofun

theorem restore_of_error {g : Game} {saved : Snapshot} {e : SessionError}
    (h : (g.session.restore saved).result = .error e) : g.restore saved = (.error e, g) := by
  unfold Game.restore
  dsimp only
  rw [h, session_restore_of_error h]

theorem restore_of_ok {g : Game} {saved : Snapshot}
    (h : (g.session.restore saved).result = .ok ()) :
    g.restore saved =
      finish { g.view with ended := false } (g.session.restore saved).session.redisplay := by
  unfold Game.restore
  dsimp only
  rw [h]

theorem story_play (g : Game) (m : Move) : (g.play m).2.session.story = g.session.story := by
  cases m with
  | start =>
    rw [play, Game.start, session_finish]
    exact (continues_start g.session).story
  | respond action =>
    rw [play, Game.respond, session_finish]
    exact (continues_respond g.session action).story
  | setState state => rfl
  | restore saved =>
    rw [play]
    cases hresult : (g.session.restore saved).result with
    | error e => rw [restore_of_error hresult]
    | ok u =>
      rw [restore_of_ok hresult, session_finish, session_redisplay]
      exact (continues_restore g.session saved).story

/-- Each move shows the resources behind its writes, unless it fails with an event on screen. -/
theorem kept_play {g : Game} (h : g.Kept) (m : Move) : (g.play m).2.Kept := by
  cases m with
  | start => exact kept_finish h (continues_start g.session).story idle_start
  | respond action => exact kept_finish h (continues_respond g.session action).story idle_respond
  | setState state => exact fun _ => rfl
  | restore saved =>
    rw [play]
    cases hresult : (g.session.restore saved).result with
    | error e =>
      rw [restore_of_error hresult]
      exact h
    | ok u =>
      rw [restore_of_ok hresult]
      exact fun _ => inStep_finish_of_shown (lastResources_redisplay _)

/-! ### Runs of moves -/

theorem story_run (g : Game) (moves : List Move) :
    (g.run moves).session.story = g.session.story := by
  induction moves generalizing g with
  | nil => rfl
  | cons m moves ih => exact (ih _).trans (story_play g m)

theorem kept_run {g : Game} (h : g.Kept) (moves : List Move) : (g.run moves).Kept := by
  induction moves generalizing g with
  | nil => exact h
  | cons m moves ih => exact ih (kept_play h m)

theorem kept_new (story : Story) (draws : Draws) : (new story draws).Kept :=
  fun _ => rfl

/-- One move ends a story on screen, or takes back its end. -/
theorem ended_play {g : Game} (m : Move) :
    (g.play m).2.view.ended = true ↔ g.EndsBy m ∨ (g.view.ended = true ∧ ¬ g.BackBy m) := by
  cases m with
  | start =>
    rw [play, Game.start, ended_finish]
    simp [EndsBy, BackBy]
  | respond action =>
    rw [play, Game.respond, ended_finish]
    simp [EndsBy, BackBy]
  | setState state =>
    simp [EndsBy, BackBy, play, Game.setState, watch_eq]
  | restore saved =>
    rw [play]
    cases hresult : (g.session.restore saved).result with
    | error e =>
      rw [restore_of_error hresult]
      simp [EndsBy, BackBy, hresult]
    | ok u =>
      have hends : g.BackBy (.restore saved) := hresult
      rw [restore_of_ok hresult, ended_finish]
      simp [EndsBy, hends, redisplay_ne_noEventsAvailable]

theorem over_concat {g : Game} {moves : List Move} {m : Move} :
    g.Over (moves ++ [m]) ↔
      (g.run moves).EndsBy m ∨ (g.Over moves ∧ ¬ (g.run moves).BackBy m) := by
  constructor
  · intro h
    generalize hall : moves ++ [m] = all at h
    cases h with
    | ends hends =>
      obtain ⟨rfl, hm⟩ := List.append_inj' hall rfl
      obtain rfl := List.singleton_inj.1 hm
      exact Or.inl hends
    | goesOn hover hback =>
      obtain ⟨rfl, hm⟩ := List.append_inj' hall rfl
      obtain rfl := List.singleton_inj.1 hm
      exact Or.inr ⟨hover, hback⟩
  · rintro (hends | ⟨hover, hback⟩)
    · exact .ends hends
    · exact .goesOn hover hback

/-- The end is on screen when it was reached and not taken back since. -/
theorem ended_run {g : Game} (h : g.view.ended = false) (moves : List Move) :
    (g.run moves).view.ended = true ↔ g.Over moves := by
  induction moves using List.reverseRecOn with
  | nil =>
    constructor
    · intro hended
      exact absurd (h.symm.trans hended) Bool.false_ne_true
    · intro hover
      generalize hall : ([] : List Move) = all at hover
      cases hover with
      | ends hends => exact absurd hall (by simp)
      | goesOn hover hback => exact absurd hall (by simp)
  | append_singleton moves m ih =>
    rw [run_concat, ended_play, ih, over_concat]

/-! ### Views -/

/-- A view shows the event on screen with the actions that it offers. -/
def Shows (g : Game) (e : Event) : Prop :=
  g.session.currentEvent? = some e ∧ g.view.description = e.description ∧
    g.session.offered = .ok g.view.actions

theorem shows_finish {v : View} {t : Turn} (hresult : t.result = .ok ()) (h : Presented t) :
    ∃ e, (finish v t).2.Shows e := by
  obtain ⟨e, names, he, hnames, hlast⟩ := h
  have hview : (finish v t).2.view = watch v t := by
    unfold finish
    rw [hresult]
  refine ⟨e, ?_⟩
  unfold Shows
  rw [session_finish, hview, watch_eq, hlast]
  exact ⟨he, rfl, hnames⟩

/-- A view of no event: it shows what another one has shown. -/
structure Stale (v : View) (g : Game) : Prop where
  event : g.session.currentEvent? = none
  description : g.view.description = v.description
  actions : g.view.actions = v.actions

theorem stale_redisplay {v : View} {s : Session} (h : s.currentEvent? = none) :
    Stale v (finish { v with ended := false } s.redisplay).2 := by
  have hshown : s.redisplay = ⟨.ok (), s, [s.resourceDisplay]⟩ := by
    unfold redisplay
    rw [h]
  rw [hshown]
  exact ⟨h, rfl, rfl⟩

theorem ok_of_restore {g : Game} {saved : Snapshot} (h : (g.restore saved).1 = .ok ()) :
    (g.session.restore saved).result = .ok () := by
  cases hresult : (g.session.restore saved).result with
  | ok u => rfl
  | error e =>
    rw [restore_of_error hresult] at h
    exact absurd h nofun

/-- A move that succeeds leaves the resources of the document on screen. -/
theorem inStep_play {g : Game} (h : g.Kept) {m : Move} (hresult : (g.play m).1 = .ok ()) :
    (g.play m).2.InStep := by
  cases m with
  | start =>
    have hunfailing : Unfailing g.session.start.result := unfailing_of_finish hresult
    have hstory := (continues_start g.session).story
    by_cases hcurrent : g.session.current.isSome = true
    · have hstart : g.session.start = g.session.fail .alreadyStarted [] := if_pos hcurrent
      have hfails : g.session.start.result = .error .alreadyStarted := by
        rw [hstart]
        rfl
      exact absurd hresult (result_finish_of_error hfails (by simp))
    · have hnone : g.session.currentEvent? = none := by
        rw [currentEvent?, Option.not_isSome_iff_eq_none.1 hcurrent]
        rfl
      exact inStep_finish (hstory ▸ h hnone) ((onScreen_start rfl).resources hunfailing)
  | respond action =>
    have hunfailing : Unfailing (g.session.respond action).result := unfailing_of_finish hresult
    have hrespond := respond_eq g.session action
    cases haction : g.session.action? action with
    | none =>
      rw [haction] at hrespond
      have hfails : (g.session.respond action).result = .error (.actionNotAvailable action) := by
        rw [hrespond]
        rfl
      exact absurd hresult (result_finish_of_error hfails (by simp))
    | some a =>
      rw [haction] at hrespond
      rw [hrespond] at hunfailing
      refine inStep_finish_of_shown ?_
      rw [hrespond]
      exact lastResources_play hunfailing
  | setState state => rfl
  | restore saved =>
    have hback : (g.session.restore saved).result = .ok () := ok_of_restore hresult
    rw [play, restore_of_ok hback]
    exact inStep_finish_of_shown (lastResources_redisplay _)

/-- A move that succeeds and finds its event shows it, with what it offers, unless it has gone back
to a snapshot without an event. -/
theorem shows_play {g : Game} {m : Move} (hm : m.Shown) (hresult : (g.play m).1 = .ok ())
    (hends : ¬ g.EndsBy m) :
    (∃ e, (g.play m).2.Shows e) ∨ (∃ saved, m = .restore saved) ∧ Stale g.view (g.play m).2 := by
  cases m with
  | start =>
    have hok : g.session.start.result = .ok () := (result_finish hresult).resolve_right hends
    exact Or.inl (shows_finish hok ((onScreen_start rfl).event hok))
  | respond action =>
    have hok : (g.session.respond action).result = .ok () :=
      (result_finish hresult).resolve_right hends
    exact Or.inl (shows_finish hok ((onScreen_respond rfl).event hok))
  | setState state => exact absurd hm id
  | restore saved =>
    have hback : (g.session.restore saved).result = .ok () := ok_of_restore hresult
    rw [play, restore_of_ok hback] at hresult ⊢
    cases hevent : (g.session.restore saved).session.currentEvent? with
    | none => exact Or.inr ⟨⟨saved, rfl⟩, stale_redisplay hevent⟩
    | some e =>
      have hok := (result_finish hresult).resolve_right (redisplay_ne_noEventsAvailable _)
      have hscreen : OnScreen [] (g.session.restore saved).session.redisplay :=
        onScreen_redisplay hevent
      exact Or.inl (shows_finish hok (hscreen.event hok))

/-- Behind any moves, failed ones included, a move that succeeds leaves the resources of the
document on screen.  The end is on screen when this turn finds no event, and stays there from an
earlier turn until a move goes back.  A turn that finds no event leaves no actions; any other one
shows the event on screen with what it offers, or has gone back to no event and keeps the text and
the actions that were on screen. -/
theorem view_after_move (story : Story) (draws : Draws) (before : List Move) (m : Move) :
    let game := new story draws
    let g := game.run before
    let left := (g.play m).2
    (g.play m).1 = .ok () →
      left.view.resources = drawn story left.session.state.resources ∧
      (left.view.ended = true ↔ g.EndsBy m ∨ (game.Over before ∧ ¬ g.BackBy m)) ∧
      (g.EndsBy m → left.view.actions = []) ∧
      (m.Shown → ¬ g.EndsBy m →
        (∃ e, left.Shows e) ∨ (∃ saved, m = .restore saved) ∧ Stale g.view left) := by
  intro game g left hresult
  have hstory : left.session.story = story := (story_play g m).trans (story_run game before)
  have hresources : left.InStep := inStep_play (kept_run (kept_new story draws) before) hresult
  have hended : g.view.ended = true ↔ game.Over before := ended_run rfl before
  refine ⟨?_, ?_, ?_, fun hm hends => shows_play hm hresult hends⟩
  · rw [← hstory]
    exact hresources
  · rw [← hended]
    exact ended_play m
  · intro hends
    cases m with
    | start => exact actions_finish_of_none hends
    | respond action => exact actions_finish_of_none hends
    | setState state => exact absurd hends id
    | restore saved => exact absurd hends id

/-- A story with a gate that is shown while it is open. -/
def gated : Story :=
  let gate : Access := ⟨["resources", "gate"]⟩
  let turn (value : String) : Action := ⟨[⟨gate, .set, .text value⟩], none⟩
  { version := 1, title := "T", description := "D"
    resources := [("gate", ⟨"g", "The gate is %s", "Gate", .str "open"⟩)]
    events := [
      { event := "gate", storyline := "a", description := "Gate", repeatable := true
        onDisplay := []
        triggers := Triggers.none.set ⟨.atom (.access gate) .equal (.text "open"), 1.0⟩ .hard
        actions := [("Lock", turn "shut"), ("Unlock", turn "open")] }]
    defaultState := [("global", .obj [("current_turn", .nat 0)]),
      ("resources", .obj [("gate", .str "open")]), ("storylines", .obj [("a", .obj [])])] }

/-- The gate is locked, which ends the story, and unlocked again: the end stays on screen with the
gate and its actions.  Going back to the start then takes the end off the screen, but not the
gate. -/
theorem view_gated :
    let locked := (new gated (.ofList [])).run [.start, .respond "Lock"]
    let unlocked := (locked.play (.respond "Unlock")).2
    let back := (unlocked.play (.restore (begin gated (.ofList [])).snapshot)).2
    let gate : Shown := ⟨"gate", "Gate", .str "open", "The gate is open"⟩
    (locked.play (.respond "Unlock")).1 = .ok () ∧ ¬ locked.EndsBy (.respond "Unlock") ∧
      unlocked.view = ⟨"Gate", ["Lock", "Unlock"], [gate], true⟩ ∧ (∃ e, unlocked.Shows e) ∧
      back.view = ⟨"Gate", ["Lock", "Unlock"], [gate], false⟩ ∧ Stale unlocked.view back := by
  intro locked unlocked back gate
  let start := (begin gated (.ofList [])).snapshot
  have hunlock : (locked.play (.respond "Unlock")).1 = .ok () := by decide +kernel
  have hback : (unlocked.play (.restore start)).1 = .ok () := by decide +kernel
  have hfound : (locked.session.respond "Unlock").result = .ok () := by decide +kernel
  have hends : ¬ locked.EndsBy (.respond "Unlock") := fun h => absurd (hfound.symm.trans h) nofun
  obtain ⟨-, -, -, hshows⟩ :=
    view_after_move gated (.ofList []) [.start, .respond "Lock"] (.respond "Unlock") hunlock
  obtain ⟨-, -, -, hstale⟩ :=
    view_after_move gated (.ofList []) [.start, .respond "Lock", .respond "Unlock"]
      (.restore start) hback
  have hunlocked : unlocked.view = ⟨"Gate", ["Lock", "Unlock"], [gate], true⟩ := by decide +kernel
  have hleft : back.view = ⟨"Gate", ["Lock", "Unlock"], [gate], false⟩ := by decide +kernel
  have hshown : ∃ e, unlocked.Shows e := by
    rcases hshows trivial hends with hevent | ⟨⟨saved, hsaved⟩, -⟩
    · exact hevent
    · exact absurd hsaved nofun
  have hkept : Stale unlocked.view back := by
    rcases hstale trivial id with ⟨e, he, -⟩ | ⟨-, h⟩
    · have hnone : back.session.currentEvent? = none := by decide +kernel
      exact absurd (hnone.symm.trans he) nofun
    · exact h
  exact ⟨hunlock, hends, hunlocked, hshown, hleft, hkept⟩

end Narrative.Game
