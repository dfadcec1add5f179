import Mathlib.Tactic.Common
import Narrative.Chart.Walk
import Narrative.Proofs.Session.Restore
import Narrative.Proofs.Session.Rivals
import Narrative.Proofs.Session.Screen

/-!
# Walks find all chains

A walk goes back to one snapshot before each action of an event, so that no branch sees what another
one did.  Where no lottery decides, the chains it collects are exactly those along which the story
can be played.
-/

namespace Narrative.Chart

open Session

/-! ### Chains that are played -/

/-- Answers to the events on screen, from one session to another one, each with an action that is
offered and each successful, and the chain of the events on screen. -/
inductive Plays : Session → List String → Chain → Session → Prop
  | stay {s : Session} {e : Event} (he : s.currentEvent? = some e) : Plays s [] [e.slug] s
  | answer {s t : Session} {e : Event} {names actions : List String} {name : String} {chain : Chain}
      (he : s.currentEvent? = some e) (hnames : s.offered = .ok names) (hname : name ∈ names)
      (hresult : (s.respond name).result = .ok ())
      (hrest : Plays (s.respond name).session actions chain t) :
    Plays s (name :: actions) (e.slug :: chain) t

/-- No event comes after one of the actions that a session offers. -/
def Closes (s : Session) : Prop :=
  ∃ names name, s.offered = .ok names ∧ name ∈ names ∧
    (s.respond name).result = .error .noEventsAvailable

/-- A chain of at most `limit` answers from a session that ends where nothing is offered, where no
more answers are allowed, or where no event comes after some action. -/
def Found (limit : Nat) (s : Session) (chain : Chain) : Prop :=
  ∃ actions t, Plays s actions chain t ∧ actions.length ≤ limit ∧
    (t.offered = .ok [] ∨ actions.length = limit ∨ Closes t)

/-- No answer from a session on is decided by a lottery. -/
def Unrivalled (s : Session) : Prop :=
  ∀ actions chain t, Plays s actions chain t → ∀ names name, t.offered = .ok names → name ∈ names →
    ∀ u, t.AnswerSearches name u → u.Unrivalled

theorem Plays.length {s t : Session} {actions : List String} {chain : Chain}
    (h : Plays s actions chain t) : chain.length = actions.length + 1 := by
  induction h with
  | stay => rfl
  | answer he hnames hname hresult hrest ih => rw [List.length_cons, List.length_cons, ih]

theorem Plays.story {s t : Session} {actions : List String} {chain : Chain}
    (h : Plays s actions chain t) : t.story = s.story := by
  induction h with
  | stay => rfl
  | answer _ _ _ _ _ ih => exact ih.trans (continues_respond _ _).story

theorem Found.length_le {limit : Nat} {s : Session} {chain : Chain} (h : Found limit s chain) :
    chain.length ≤ limit + 1 := by
  obtain ⟨actions, t, hplays, hlength, -⟩ := h
  rw [hplays.length]
  omega

theorem Unrivalled.answer {s : Session} (h : Unrivalled s) {e : Event} {names : List String}
    {name : String} (he : s.currentEvent? = some e) (hnames : s.offered = .ok names)
    (hname : name ∈ names) (hresult : (s.respond name).result = .ok ()) :
    Unrivalled (s.respond name).session :=
  fun _ _ t hplays => h _ _ t (.answer he hnames hname hresult hplays)

section Found

variable {s : Session} {e : Event} {limit : Nat} {names : List String} {chain : Chain}

theorem found_of_offered_nil (he : s.currentEvent? = some e) (hnames : s.offered = .ok []) :
    Found limit s chain ↔ chain = [e.slug] := by
  constructor
  · rintro ⟨actions, t, hplays, -, -⟩
    cases hplays with
    | stay he' =>
      obtain rfl := Option.some.inj (he.symm.trans he')
      rfl
    | answer _ hnames' hname _ _ =>
      obtain rfl := Except.ok.inj (hnames.symm.trans hnames')
      exact absurd hname List.not_mem_nil
  · rintro rfl
    exact ⟨[], s, .stay he, Nat.zero_le _, Or.inl hnames⟩

theorem found_zero (he : s.currentEvent? = some e) : Found 0 s chain ↔ chain = [e.slug] := by
  constructor
  · rintro ⟨actions, t, hplays, hlength, -⟩
    cases hplays with
    | stay he' =>
      obtain rfl := Option.some.inj (he.symm.trans he')
      rfl
    | answer _ _ _ _ _ => exact absurd hlength (by simp)
  · rintro rfl
    exact ⟨[], s, .stay he, Nat.le_refl _, Or.inr (Or.inl rfl)⟩

/-- What the answer with one action adds to the chains from a session: the chain that ends there
when no event comes next, or those that go on. -/
def Branch (limit : Nat) (s : Session) (e : Event) (name : String) (chain : Chain) : Prop :=
  ((s.respond name).result = .error .noEventsAvailable ∧ chain = [e.slug]) ∨
    ((s.respond name).result = .ok () ∧
      ∃ rest, chain = e.slug :: rest ∧ Found limit (s.respond name).session rest)

theorem found_succ (he : s.currentEvent? = some e) (hnames : s.offered = .ok names)
    (hne : names ≠ []) :
    Found (limit + 1) s chain ↔ ∃ name ∈ names, Branch limit s e name chain := by
  constructor
  · rintro ⟨actions, t, hplays, hlength, hend⟩
    cases hplays with
    | stay he' =>
      obtain rfl := Option.some.inj (he.symm.trans he')
      rcases hend with hnone | hlimit | ⟨names', name, hnames', hname, hresult⟩
      · exact absurd (Except.ok.inj (hnames.symm.trans hnone)) hne
      · exact absurd hlimit (by simp)
      · obtain rfl := Except.ok.inj (hnames.symm.trans hnames')
        exact ⟨name, hname, Or.inl ⟨hresult, rfl⟩⟩
    | answer he' hnames' hname hresult hrest =>
      obtain rfl := Option.some.inj (he.symm.trans he')
      obtain rfl := Except.ok.inj (hnames.symm.trans hnames')
      rw [List.length_cons] at hlength hend
      refine ⟨_, hname, Or.inr ⟨hresult, _, rfl, _, t, hrest, by omega, ?_⟩⟩
      exact hend.imp_right (Or.imp_left fun h => by omega)
  · rintro ⟨name, hname, ⟨hresult, rfl⟩ | ⟨hresult, rest, rfl, actions, t, hplays, hlength, hend⟩⟩
    · exact ⟨[], s, .stay he, Nat.zero_le _, Or.inr (Or.inr ⟨names, name, hnames, hname, hresult⟩)⟩
    · refine ⟨name :: actions, t, .answer he hnames hname hresult hplays, ?_, ?_⟩
      · rw [List.length_cons]
        omega
      · rw [List.length_cons]
        exact hend.imp_right (Or.imp_left fun h => by omega)

end Found

/-! ### Walks -/

namespace Walk

/-- A walk that has gone on in the same story, and has collected the chains of a predicate besides
those it had. -/
structure Adds (w w' : Walk) (P : Chain → Prop) : Prop where
  story : w'.session.story = w.session.story
  chains : ∀ chain, chain ∈ w'.chains.elements ↔ chain ∈ w.chains.elements ∨ P chain

theorem Adds.mono {w w' : Walk} {P Q : Chain → Prop} (h : w.Adds w' P) (hiff : ∀ c, P c ↔ Q c) :
    w.Adds w' Q :=
  ⟨h.story, fun chain => (h.chains chain).trans (or_congr_right (hiff chain))⟩

theorem adds_collect (w : Walk) (chain : Chain) : w.Adds (w.collect chain) (· = chain) := by
  refine ⟨rfl, fun other => ?_⟩
  rw [collect, SortedSet.mem_insert, or_comm]

/-- Steps that are not made behind an error. -/
def steps (step : Walk → String → Walk) (names : List String) (w : Walk) : Walk :=
  names.foldl (fun v name => if v.failure.isSome then v else step v name) w

section Steps

variable {step : Walk → String → Walk} {names : List String} {w : Walk}

theorem steps_of_failure (h : w.failure.isSome = true) : steps step names w = w := by
  induction names with
  | nil => rfl
  | cons name names ih =>
    rw [steps, List.foldl_cons, if_pos h]
    exact ih

theorem failure_of_steps (h : (steps step names w).failure = none) : w.failure = none := by
  cases hfailure : w.failure with
  | none => rfl
  | some e =>
    rw [steps_of_failure (by rw [hfailure]; rfl), hfailure] at h
    exact absurd h nofun

theorem steps_cons {name : String} (h : w.failure = none) :
    steps step (name :: names) w = steps step names (step w name) := by
  rw [steps, List.foldl_cons, h]
  rfl

/-- Steps that end without an error have all been made, and have collected the chains of each. -/
theorem adds_steps {P : String → Chain → Prop}
    (hstep : ∀ name ∈ names, ∀ v, v.session.story = w.session.story →
      (step v name).failure = none → v.Adds (step v name) (P name))
    (hdone : (steps step names w).failure = none) :
    w.Adds (steps step names w) fun chain => ∃ name ∈ names, P name chain := by
  induction names generalizing w with
  | nil => exact ⟨rfl, fun chain => by simp [steps]⟩
  | cons name names ih =>
    have hmade : steps step (name :: names) w = steps step names (step w name) :=
      steps_cons (failure_of_steps hdone)
    rw [hmade] at hdone ⊢
    have hfirst := hstep name List.mem_cons_self w rfl (failure_of_steps hdone)
    have hlater := ih (fun n hn v hv => hstep n (List.mem_cons_of_mem _ hn) v
      (hv.trans hfirst.story)) hdone
    refine ⟨hlater.story.trans hfirst.story, fun chain => ?_⟩
    rw [hlater.chains, hfirst.chains, or_assoc, List.exists_mem_cons_iff]

end Steps

section Explore

variable {s : Session} {e : Event} {limit : Nat} {names : List String} {name : String}
  {chain : Chain} {w : Walk}

/-- An action that is played from a snapshot adds the chains that its answer leads to, when the walk
goes on from there as it has to. -/
theorem adds_play {deeper : Walk → Walk} {p : Played}
    (hslugs : (s.story.events.map Event.slug).Nodup) (hplaced : s.Placed)
    (hrivals : ∀ t, s.AnswerSearches p.action t → t.Unrivalled)
    (hdeeper : (s.respond p.action).result = .ok () → ∀ d v,
      v.session = (s.respond p.action).session.redrawn d → (deeper v).failure = none →
        v.Adds (deeper v) fun c =>
          ∃ rest, c = chain ++ [e.slug] ++ rest ∧ Found limit (s.respond p.action).session rest)
    (hstory : w.session.story = s.story)
    (hdone : (play s.snapshot (chain ++ [e.slug]) deeper p w).failure = none) :
    w.Adds (play s.snapshot (chain ++ [e.slug]) deeper p w) fun c =>
      ∃ rest, c = chain ++ rest ∧ Branch limit s e p.action rest := by
  obtain ⟨d, hrespond⟩ := respond_redrawn hrivals w.session.draws
  have hrestore : w.session.restore s.snapshot = ⟨.ok (), s.redrawn w.session.draws, []⟩ :=
    restore_snapshot hslugs hplaced hstory
  have hkept : (s.respond p.action).session.story = w.session.story :=
    (continues_respond s p.action).story.trans hstory.symm
  unfold play at hdone ⊢
  rw [hrestore] at hdone ⊢
  dsimp only at hdone ⊢
  rw [hrespond] at hdone ⊢
  have hresult : ((s.respond p.action).redrawn d).result = (s.respond p.action).result := rfl
  have hsession : ((s.respond p.action).redrawn d).session =
      (s.respond p.action).session.redrawn d := rfl
  rw [hresult, hsession] at hdone ⊢
  cases hanswer : (s.respond p.action).result with
  | ok u =>
    rw [hanswer] at hdone
    have hadds := hdeeper hanswer d _ rfl hdone
    refine ⟨hadds.story.trans hkept, fun c => (hadds.chains c).trans (or_congr_right ?_)⟩
    simp [Branch, hanswer]
  | error cause =>
    rw [hanswer] at hdone
    cases cause with
    | noEventsAvailable =>
      have hadds := adds_collect ⟨(s.respond p.action).session.redrawn d, p :: w.played, w.chains,
        w.failure⟩ (chain ++ [e.slug])
      refine ⟨hadds.story.trans hkept, fun c => (hadds.chains c).trans (or_congr_right ?_)⟩
      simp [Branch, hanswer]
    | _ => exact absurd hdone nofun

/-- A walk that goes on without an error has seen which actions are offered. -/
theorem offered_of_explore {depth : Nat} (he : w.session.currentEvent? = some e)
    (hdone : (explore limit depth chain w).failure = none) :
    ∃ names, w.session.offered = .ok names := by
  unfold explore at hdone
  rw [he] at hdone
  cases hnames : w.session.offered with
  | error cause =>
    rw [hnames] at hdone
    exact absurd hdone nofun
  | ok names => exact ⟨names, rfl⟩

theorem explore_last {depth : Nat} (he : w.session.currentEvent? = some e)
    (hnames : w.session.offered = .ok names) (hlast : names = [] ∨ limit = 0) :
    explore limit depth chain w = w.collect (chain ++ [e.slug]) := by
  unfold explore
  rw [he, hnames]
  cases names with
  | nil => rfl
  | cons name names =>
    obtain rfl : limit = 0 := hlast.resolve_left (List.cons_ne_nil _ _)
    rfl

theorem explore_succ {depth : Nat} (he : w.session.currentEvent? = some e)
    (hnames : w.session.offered = .ok names) (hne : names ≠ []) :
    explore (limit + 1) depth chain w =
      steps (fun v name => play w.session.snapshot (chain ++ [e.slug])
        (explore limit (depth + 1) (chain ++ [e.slug])) ⟨depth, name, e.slug⟩ v) names w := by
  rw [explore, he]
  dsimp only
  rw [hnames]
  cases names with
  | nil => exact absurd rfl hne
  | cons name names => rfl

/-- A walk that ends at an event adds the chain of it. -/
theorem adds_last (h : ∀ rest, Found limit s rest ↔ rest = [e.slug]) :
    w.Adds (w.collect (chain ++ [e.slug])) fun c =>
      ∃ rest, c = chain ++ rest ∧ Found limit s rest :=
  (adds_collect w _).mono fun c => by simp [h]

/-- A walk from an event adds exactly the chains that are found from it. -/
theorem adds_explore {d : Draws} {depth : Nat} (hslugs : (s.story.events.map Event.slug).Nodup)
    (hplaced : s.Placed) (hrivals : Unrivalled s) (he : s.currentEvent? = some e)
    (hsession : w.session = s.redrawn d) (hdone : (explore limit depth chain w).failure = none) :
    w.Adds (explore limit depth chain w) fun c =>
      ∃ rest, c = chain ++ rest ∧ Found limit s rest := by
  induction limit generalizing s e depth chain w d with
  | zero =>
    have hevent : w.session.currentEvent? = some e := by rw [hsession, currentEvent_redrawn, he]
    obtain ⟨names, hnames⟩ := offered_of_explore hevent hdone
    rw [explore_last hevent hnames (Or.inr rfl)]
    exact adds_last fun rest => found_zero he
  | succ limit ih =>
    have hevent : w.session.currentEvent? = some e := by rw [hsession, currentEvent_redrawn, he]
    obtain ⟨names, hoffered⟩ := offered_of_explore hevent hdone
    have hnames : s.offered = .ok names := by rwa [hsession, offered_redrawn] at hoffered
    by_cases hne : names = []
    · rw [explore_last hevent hoffered (Or.inl hne)]
      exact adds_last fun rest => found_of_offered_nil he (hne ▸ hnames)
    rw [explore_succ hevent hoffered hne] at hdone ⊢
    have hsaved : w.session.snapshot = s.snapshot := by
      rw [hsession]
      rfl
    have hstory : w.session.story = s.story := by
      rw [hsession]
      rfl
    refine (adds_steps (P := fun name c => ∃ rest, c = chain ++ rest ∧ Branch limit s e name rest)
      (fun name hname v hv hplayed => ?_) hdone).mono fun c => ?_
    · rw [hsaved] at hplayed ⊢
      refine adds_play hslugs hplaced (fun t => hrivals _ _ s (.stay he) _ _ hnames hname t) ?_
        (hv.trans hstory) hplayed
      intro hresult d' u hu
      have hkept := continues_respond s name
      obtain ⟨e', -, he', -, -⟩ :=
        (onScreen_respond (rfl : _ = s.state.resources)).event hresult
      refine ih ?_ (hkept.placed hplaced) (hrivals.answer he hnames hname hresult) he' hu
      rw [hkept.story]
      exact hslugs
    · constructor
      · rintro ⟨name, hname, rest, rfl, hbranch⟩
        exact ⟨rest, rfl, (found_succ he hnames hne).2 ⟨name, hname, hbranch⟩⟩
      · rintro ⟨rest, rfl, hfound⟩
        obtain ⟨name, hname, hbranch⟩ := (found_succ he hnames hne).1 hfound
        exact ⟨name, hname, rest, rfl, hbranch⟩

end Explore

/-! ### Runs without rivals -/

/-- No search of a story is decided by a lottery, at its start or behind any answers. -/
structure NoRivals (story : Story) (draws : Draws) : Prop where
  start : ∀ t, (begin story draws).Searches t → t.Unrivalled
  answers : Unrivalled (begin story draws).start.session

/-- A story with one soft trigger leaves nothing to a lottery. -/
theorem noRivals_of_soft {story : Story}
    (h : story.events.countP (fun e => e.triggers.soft.isSome) ≤ 1) (draws : Draws) :
    NoRivals story draws := by
  have hevents : ∀ t : Session, t.story = story → t.Unrivalled :=
    fun t ht => unrivalled_of_soft (ht ▸ h)
  have hstart : (begin story draws).start.session.story = story :=
    (continues_start (begin story draws)).story
  refine ⟨fun t ht => hevents t ht.story, ?_⟩
  intro actions chain t hplays names name _ _ u hsearches
  exact hevents u (hsearches.story.trans (hplays.story.trans hstart))

/-- Where no lottery decides, a walk through a story with different slugs for different events that
ends without an error has exactly the chains along which the story can be played from its start,
whatever the draws, and none of them goes deeper than the walk. -/
theorem chains_exact {story : Story} (hslugs : (story.events.map Event.slug).Nodup) {d : Draws}
    (hrivals : NoRivals story d) {draws : Draws} {limit : Nat}
    (hdone : (Walk.run story draws limit).failure = none) :
    (begin story d).start.result = .ok () ∧
      (∀ chain, chain ∈ (Walk.run story draws limit).chains.elements ↔
        Found limit (begin story d).start.session chain) ∧
      ∀ chain ∈ (Walk.run story draws limit).chains.elements, chain.length ≤ limit + 1 := by
  -- the start is a turn, as nothing is on screen
  obtain ⟨d', hredrawn⟩ := next_redrawn hrivals.start draws
  have hstart : (begin story draws).start = (begin story d).start.redrawn d' := hredrawn
  unfold Walk.run at hdone ⊢
  dsimp only at hdone ⊢
  rw [hstart] at hdone ⊢
  have hresult : ((begin story d).start.redrawn d').result = (begin story d).start.result := rfl
  rw [hresult] at hdone ⊢
  cases hok : (begin story d).start.result with
  | error cause =>
    rw [hok] at hdone
    exact absurd hdone nofun
  | ok u =>
    rw [hok] at hdone
    have hkept := continues_start (begin story d)
    obtain ⟨e, -, he, -, -⟩ :=
      (onScreen_start (rfl : _ = (begin story d).state.resources)).event hok
    have hadds := adds_explore (hkept.story.symm ▸ hslugs) (hkept.placed (placed_begin story d))
      hrivals.answers he rfl hdone
    have hchains : ∀ chain, chain ∈ (explore limit 0 []
        (Walk.start ((begin story d).start.session.redrawn d'))).chains.elements ↔
        Found limit (begin story d).start.session chain := by
      intro chain
      refine (hadds.chains chain).trans ?_
      simp [Walk.start, SortedSet.empty]
    exact ⟨rfl, hchains, fun chain hchain => ((hchains chain).1 hchain).length_le⟩

/-- A passage that goes on until a door is opened, and that nothing follows once it is shut. -/
def passage : Story :=
  let way : Access := ⟨["global", "way"]⟩
  let go (value : String) : Action := ⟨[⟨way, .set, .text value⟩], none⟩
  { version := 1, title := "", description := "", resources := []
    events := [
      { event := "hall", storyline := "a", description := "Hall", repeatable := true
        onDisplay := []
        triggers := Triggers.none.set ⟨.atom (.access way) .equal (.text "on"), 1.0⟩ .soft
        actions := [("Stay", ⟨[], none⟩), ("Open", go "open"), ("Shut", go "shut")] },
      { event := "door", storyline := "a", description := "Door", repeatable := false
        onDisplay := []
        triggers := Triggers.none.set ⟨.atom (.access way) .equal (.text "open"), 1.0⟩ .hard
        actions := [] }]
    defaultState := [("global", .obj [("current_turn", .nat 0), ("way", .str "on")])] }

/-- One step deep the hall is left by each of its actions, with one draw or another. -/
theorem chains_passage :
    (passage.events.map Event.slug).Nodup ∧ NoRivals passage (.ofList [0.5]) ∧
      (run passage (.ofList []) 1).failure = none ∧
      (run passage (.ofList []) 1).chains.elements =
        [["a/hall"], ["a/hall", "a/door"], ["a/hall", "a/hall"]] ∧
      (begin passage (.ofList [0.5])).start.result = .ok () ∧
      ∀ chain, Found 1 (begin passage (.ofList [0.5])).start.session chain ↔
        chain ∈ [["a/hall"], ["a/hall", "a/door"], ["a/hall", "a/hall"]] := by
  have hslugs : (passage.events.map Event.slug).Nodup := by decide +kernel
  have hrivals : NoRivals passage (.ofList [0.5]) := noRivals_of_soft (by decide +kernel) _
  have hdone : (run passage (.ofList []) 1).failure = none := by decide +kernel
  have hwalk : (run passage (.ofList []) 1).chains.elements =
      [["a/hall"], ["a/hall", "a/door"], ["a/hall", "a/hall"]] := by
    decide +kernel
  obtain ⟨hstart, hchains, -⟩ := chains_exact hslugs hrivals hdone
  exact ⟨hslugs, hrivals, hdone, hwalk, hstart, fun chain => hwalk ▸ (hchains chain).symm⟩

end Walk

end Narrative.Chart
