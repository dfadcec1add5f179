import Mathlib.Tactic.Common
import Narrative.Proofs.Game.View
import Narrative.Proofs.Tools.Desk

/-!
# Waiting for lines

Behind each line, a player that goes on has taken a step of its session, or has left it as it is.
So the event on screen, with the actions that are offered, is always the one that was shown last:
nothing but a turn or a saved game changes the session, and both show the event that they arrive
at.
-/

namespace Narrative.Tools.Player

open Session Display

/-! ### What has been shown -/

/-- What a session that goes on has shown between two lines. -/
inductive Step : Session → List Display → Session → Prop
  | stay (s : Session) : Step s [] s
  | next {s : Session} (h : s.next.result = .ok ()) : Step s s.next.shown s.next.session
  | respond {s : Session} {name : String} (h : (s.respond name).result = .ok ()) :
    Step s (s.respond name).shown (s.respond name).session
  | load {s : Session} {saved : Snapshot} (h : (s.restore saved).result = .ok ()) :
    Step s (s.restore saved).session.redisplay.shown (s.restore saved).session

/-- A session that is played, with all that it has shown since its story was opened. -/
inductive Played : Session → List Display → Prop
  | opened {story : Story} {draws : Draws} (h : (begin story draws).start.result = .ok ()) :
    Played (begin story draws).start.session
      ((build story draws).shown ++ (begin story draws).start.shown)
  | goesOn {s t : Session} {shown more : List Display} (h : Played s shown)
    (hstep : Step s more t) : Played t (shown ++ more)

theorem story_step {s t : Session} {shown : List Display} (h : Step s shown t) :
    t.story = s.story := by
  cases h with
  | stay => rfl
  | next h => exact (continues_next s).story
  | respond h => exact (continues_respond s _).story
  | load h => exact (continues_restore s _).story

/-- The event on screen, with the actions that are offered, was shown last. -/
def OnTop (s : Session) (shown : List Display) : Prop :=
  ∀ e names, s.currentEvent? = some e → s.offered = .ok names →
    lastEvent shown = some (e.description, names)

theorem onTop_of_presented {turn : Turn} (h : Presented turn) (before : List Display) :
    OnTop turn.session (before ++ turn.shown) := by
  obtain ⟨e, names, he, hnames, hlast⟩ := h
  intro other offered hother hoffered
  obtain rfl := Option.some.inj (he.symm.trans hother)
  obtain rfl := Except.ok.inj (hnames.symm.trans hoffered)
  rw [lastEvent_append, hlast]
  rfl

/-- What is shown once more is what is offered, unless a condition fails to evaluate. -/
theorem onTop_redisplay (s : Session) (before : List Display) :
    OnTop s (before ++ s.redisplay.shown) := by
  intro e names he hnames
  rw [offered, he] at hnames
  have hshown : s.redisplay.shown = [s.resourceDisplay] ++ [.event e.description names] := by
    unfold redisplay showEvent
    simp only [he]
    dsimp only at hnames
    rw [hnames]
  rw [hshown, lastEvent_append, lastEvent_append]
  rfl

theorem onTop_step {s t : Session} {shown more : List Display} (h : OnTop s shown)
    (hstep : Step s more t) : OnTop t (shown ++ more) := by
  cases hstep with
  | stay => rwa [List.append_nil]
  | next hok =>
    exact onTop_of_presented ((onScreen_next (rfl : _ = s.state.resources)).event hok) shown
  | respond hok =>
    exact onTop_of_presented ((onScreen_respond (rfl : _ = s.state.resources)).event hok) shown
  | load hok => exact onTop_redisplay _ shown

theorem onTop_played {s : Session} {shown : List Display} (h : Played s shown) :
    OnTop s shown := by
  induction h with
  | @opened story draws hok =>
    exact onTop_of_presented
      ((onScreen_start (rfl : _ = (begin story draws).state.resources)).event hok) _
  | goesOn h hstep ih => exact onTop_step ih hstep

/-- Actions are only offered by an event, and with it they were shown last. -/
theorem lastEvent_played {s : Session} {shown : List Display} {names : List String}
    (h : Played s shown) (hnames : s.offered = .ok names) (hne : names ≠ []) :
    ∃ description, lastEvent shown = some (description, names) := by
  cases he : s.currentEvent? with
  | none =>
    rw [offered, he] at hnames
    exact absurd (Except.ok.inj hnames).symm hne
  | some e => exact ⟨e.description, onTop_played h e names he hnames⟩

/-! ### Lines -/

variable {seed : UInt64} {saves : String} {s : Session}

/-- A turn is only refused for the name of an action. -/
theorem ne_actionNotAvailable {e : SessionError} {name : String}
    (h : e = .noEventsAvailable ∨ ∃ cause, e = .state cause) : e ≠ .actionNotAvailable name := by
  rcases h with rfl | ⟨cause, rfl⟩ <;> exact nofun

/-- A session that goes on behind a turn is one in which the turn succeeded or was refused. -/
theorem reaches_report {R : Session → List Display → Prop} {turn : Turn}
    (hok : turn.result = .ok () → R turn.session turn.shown)
    (hrefused : ∀ name, turn.result = .error (.actionNotAvailable name) →
      R turn.session turn.shown) : Reaches id R (report (Desk.terminal seed) turn) := by
  refine .after (shows_printShown turn) fun u => ?_
  have hsame : R turn.session turn.shown → ∀ t, some turn.session = some t →
      t.story = turn.session.story ∧ R t (turn.shown ++ []) := by
    rintro hR t ht
    obtain rfl := Option.some.inj ht
    exact ⟨rfl, (List.append_nil turn.shown).symm ▸ hR⟩
  cases hresult : turn.result with
  | ok u => exact .pure (hsame (hok hresult))
  | error e =>
    cases e with
    -- the refusal is printed and the session goes on; any other error ends it
    | actionNotAvailable name =>
      exact .behind (.print _) fun u => .pure (hsame (hrefused name hresult))
    | _ => exact .never fun d => rfl

/-- What comes of a line: the session goes on by a step, or the player stops. -/
abbrev Goes (s : Session) (x : StateM Desk (Option Session)) : Prop :=
  Reaches id (fun t shown => Step s shown t) x

theorem goes_stay {x : StateM Desk Unit} (h : Extends x) : Goes s (do x; return some s) :=
  .behind h fun _ => .pure fun _ ht => Option.some.inj ht ▸ .stay s

theorem goes_next : Goes s (report (Desk.terminal seed) s.next) :=
  reaches_report .next fun _ hname => absurd rfl (ne_actionNotAvailable (result_next hname))

/-- An action that is not available is refused, and nothing has changed. -/
theorem goes_respond (name : String) : Goes s (report (Desk.terminal seed) (s.respond name)) := by
  refine reaches_report .respond fun other hother => ?_
  have hrespond := respond_eq s name
  cases haction : s.action? name with
  | none =>
    rw [haction] at hrespond
    rw [hrespond]
    exact .stay s
  | some action =>
    rw [haction] at hrespond
    rw [hrespond] at hother
    exact absurd rfl (ne_actionNotAvailable (result_play hother))

/-- A saved game is shown as it is gone back to, and one that cannot be changes nothing. -/
theorem reaches_load (name : String) :
    Reaches some (fun t shown => Step s shown t) (load (Desk.terminal seed) saves s name) := by
  have hstay : ∀ t, some s = some t → Step s [] t := fun t ht => Option.some.inj ht ▸ .stay s
  refine .behind (.read _) fun file => ?_
  cases file with
  | error e => exact .behind (.error _) fun u => .pure hstay
  | ok text =>
    dsimp only
    cases Snapshot.ofRon? text with
    | none => exact .behind (.error _) fun u => .pure hstay
    | some saved =>
      dsimp only
      cases hback : (s.restore saved).result with
      | error e =>
        rw [Game.session_restore_of_error hback]
        exact .behind (.error _) fun u => .pure hstay
      | ok u =>
        have hsession := session_redisplay (s.restore saved).session
        have hstep : ∀ t, some (s.restore saved).session.redisplay.session = some t →
            t.story = (s.restore saved).session.redisplay.session.story ∧
              Step s ((s.restore saved).session.redisplay.shown ++ []) t := by
          rintro t ht
          obtain rfl := Option.some.inj ht
          rw [List.append_nil, hsession]
          exact ⟨rfl, .load hback⟩
        refine .after (shows_printShown _) fun u => ?_
        cases (s.restore saved).session.redisplay.result with
        | ok u => exact .pure hstep
        | error e => exact .behind (.error _) fun u => .pure hstep

theorem goes_choose (line : String) : Goes s (respond (Desk.terminal seed) s line) := by
  unfold respond
  cases s.offered with
  | error e => exact .never fun d => rfl
  | ok names =>
    dsimp only
    cases choose names line with
    | noSuchNumber n => exact goes_stay (.print _)
    | action name => exact goes_respond name

theorem goes_obey (c : Command) : Goes s (obey (Desk.terminal seed) saves s c) := by
  cases c with
  | quit => exact .never fun d => rfl
  | help => exact goes_stay (.print help)
  | state => exact goes_stay (.print _)
  | next => exact goes_next
  | save name =>
    refine .behind (.save saves s name) fun r => ?_
    cases r with
    | ok path => exact goes_stay (.print _)
    | error cause => exact goes_stay (.error cause)
  | load name => exact (reaches_load name).handOn fun t => ⟨some t, rfl, fun _ ht => ht⟩
  | respond line => exact goes_choose line

theorem goes_readLine (line : String) : Goes s (readLine (Desk.terminal seed) saves s line) := by
  unfold readLine
  dsimp only
  split
  · exact goes_stay (.pure ())
  · exact goes_obey _

/-! ### Waiting -/

/-- A player waits for a line: it was started, and has gone on behind each line so far. -/
inductive Waits (seed : UInt64) (saves : String) : Session → Desk → Prop
  | opened {arguments : List String} {s : Session} {d d' : Desk}
    (h : (start (Desk.terminal seed) arguments).run d = (.playing saves s, d')) :
    Waits seed saves s d'
  | read {s t : Session} {d d' : Desk} {line : String} (h : Waits seed saves s d)
    (hline : (do
      (Desk.terminal seed).print prompt
      readLine (Desk.terminal seed) saves s line).run d = (some t, d')) :
    Waits seed saves t d'

/-- The session of a player that waits. -/
def Opening.session? : Opening → Option Session
  | closed _ => none
  | playing _ s => some s

/-- A story that is opened shows its resources and its first event. -/
theorem reaches_opening (story : Story) (draws : Draws) (title description hint : String)
    {next : Option Session → StateM Desk Opening}
    (hclosed : next none = pure (.closed success))
    (hplaying : ∀ t, next (some t) = pure (.playing saves t)) :
    Reaches Opening.session? Played (do
      printShown (Desk.terminal seed) (build story draws)
      (Desk.terminal seed).line title
      (Desk.terminal seed).line description
      (Desk.terminal seed).line hint
      next (← report (Desk.terminal seed) (build story draws).session.start)) := by
  have hstart : (build story draws).session.start = (begin story draws).start := rfl
  have hstory : (begin story draws).start.session.story = story := (continues_start _).story
  refine .after (shows_printShown _) fun _ => .behind (.print _) fun _ => .behind (.print _)
    fun _ => .behind (.print _) fun _ => Reaches.handOn (reaches_report ?_ ?_) fun o => ?_
  · exact fun hok => ⟨hstory, .opened hok⟩
  · intro name hname
    have hnext : (begin story draws).start = (begin story draws).next := rfl
    rw [hstart, hnext] at hname
    exact absurd rfl (ne_actionNotAvailable (result_next hname))
  · cases o with
    | none => exact ⟨.closed success, hclosed, nofun⟩
    | some t => exact ⟨.playing saves t, hplaying t, fun _ ht => ht⟩

theorem reaches_openStory (path : String) (r : Request) :
    Reaches Opening.session? Played (openStory (Desk.terminal seed) path r) := by
  unfold openStory openBundle Builder.build
  rw [bind_assoc]
  refine .behind (.findStory _) fun found => ?_
  cases found with
  | error cause => exact .never fun d => rfl
  | ok story =>
    dsimp only
    rw [if_pos rfl, bind_assoc]
    refine .behind (.findDraws _) fun draws => ?_
    rw [pure_bind]
    exact reaches_opening story draws _ _ _ rfl fun t => rfl

theorem reaches_start (arguments : List String) :
    Reaches Opening.session? Played (start (Desk.terminal seed) arguments) := by
  unfold start
  cases arguments with
  | nil => exact .never fun d => rfl
  | cons path rest =>
    dsimp only
    split
    · exact .never fun d => rfl
    · cases readArguments ⟨none, "saves"⟩ rest with
      | error argument => exact .never fun d => rfl
      | ok r => exact reaches_openStory path r

theorem played_of_waits {d : Desk} (h : Waits seed saves s d) :
    ∃ shown, Played s shown ∧ Prints s.story shown d.printed := by
  -- on the lines so far: what is printed behind one of them holds what its step has shown
  induction h with
  | @opened arguments s d d' h =>
    obtain ⟨shown, text, hplayed, hprints, hprinted⟩ :=
      reaches_start arguments d s (by rw [h]; rfl)
    rw [h] at hprinted
    exact ⟨shown, hplayed, hprinted ▸ hprints.behind d.printed⟩
  | @read s t d d' line h hline ih =>
    obtain ⟨shown, hplayed, hprints⟩ := ih
    have hgoes : Goes s (do
        (Desk.terminal seed).print prompt
        readLine (Desk.terminal seed) saves s line) :=
      .behind (.print prompt) fun _ => goes_readLine line
    obtain ⟨more, text, hstep, hmore, hprinted⟩ := hgoes d t (by rw [hline]; rfl)
    rw [hline] at hprinted
    rw [story_step hstep] at hmore ⊢
    exact ⟨shown ++ more, hplayed.goesOn hstep, hprinted ▸ hprints.append hmore⟩

/-- Behind the lines so far, a run goes on as the player that waits. -/
theorem run_of_waits {d : Desk} (h : Waits seed saves s d) :
    ∃ arguments lines first, ∀ more,
      (run (Desk.terminal seed) arguments (lines ++ more)).run first =
        (do readLines (Desk.terminal seed) saves s more; return success).run d := by
  induction h with
  | @opened arguments s d d' h =>
    refine ⟨arguments, [], d, fun more => ?_⟩
    unfold run
    rw [run_bind, h]
    rfl
  | @read s t d d' line h hline ih =>
    obtain ⟨arguments, lines, first, hrun⟩ := ih
    refine ⟨arguments, lines ++ [line], first, fun more => ?_⟩
    rw [List.append_assoc, List.singleton_append, hrun]
    have hstep : (readLines (Desk.terminal seed) saves s (line :: more)).run d =
        (readLines (Desk.terminal seed) saves t more).run d' := by
      rw [readLines, ← bind_assoc, run_bind, hline]
    rw [run_bind, run_bind, hstep]

/-- A story that is read and has a first event is played from it. -/
theorem waits_of_read (path : String) (d : Desk) {text : String} {story : Story}
    (hpath : asksForHelp path = false) (hread : d.tree.read path = .ok text)
    (hparse : Story.parse? text = some story)
    (hresult : (begin story (Draws.seeded seed)).start.result = .ok ()) :
    ∃ d', Waits seed "saves" (begin story (Draws.seeded seed)).start.session d' := by
  have hopen : (openBundle (Desk.terminal seed) path none).run d =
      (.ok (build story (Draws.seeded seed)), d) := by
    have hfile : ((Desk.terminal seed).files.read path).run d = (.ok text, d) :=
      congrArg (fun r => (r, d)) hread
    unfold openBundle Builder.build Builder.findStory
    dsimp only
    rw [run_bind, run_bind, hfile]
    dsimp only
    rw [hparse]
    rfl
  have hreport : ∀ d, ((report (Desk.terminal seed)
      (build story (Draws.seeded seed)).session.start).run d).1 =
        some (begin story (Draws.seeded seed)).start.session := by
    intro d
    have hstart : (build story (Draws.seeded seed)).session.start.result = .ok () := hresult
    unfold report
    rw [run_bind, hstart]
    rfl
  have hopened : ((start (Desk.terminal seed) [path]).run d).1 =
      .playing "saves" (begin story (Draws.seeded seed)).start.session := by
    unfold start openStory
    dsimp only
    rw [hpath, readArguments, if_neg Bool.false_ne_true]
    dsimp only
    rw [Option.map_none, run_bind, hopen]
    dsimp only
    simp only [run_bind, hreport]
    rfl
  exact ⟨_, .opened (Prod.ext hopened rfl)⟩

end Narrative.Tools.Player
