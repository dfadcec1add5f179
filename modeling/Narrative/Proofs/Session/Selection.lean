import Mathlib.Tactic.Common
import Narrative.Proofs.Lottery.Slices
import Narrative.Proofs.SortedSet
import Narrative.Proofs.Session.Turn
import Narrative.Proofs.State.Global

/-!
# Which event comes next

A turn advances the turn counter and nothing else in the document.  In the document that this
leaves, and then in the one with the flag `no_events_available` set as well, it looks for an event
that is not excluded: the first one whose hard trigger holds, or else the one drawn among all whose
soft trigger holds.  That event is then on screen, and has run what it does when it is shown.
-/

namespace Narrative

namespace Session

/-! ### The search of one document -/

/-- Whether no event with a slug may be shown in the next turn: it was viewed, or it is on screen
and is not repeatable. -/
def excluded (s : Session) (slug : String) : Bool :=
  s.viewed.contains slug || s.currentEvent?.any fun e => !e.repeatable && e.slug == slug

/-- Whether an event may be shown through a gate in the next turn, with the given document. -/
def eligible (s : Session) (d : State) (gate : Gate) (e : Event) : Bool :=
  !s.excluded e.slug &&
    match e.triggers.get gate with
    | some trigger =>
      match trigger.condition.holds d with
      | .ok passed => passed
      | .error _ => false
    | none => false

/-- The indices of all events that are eligible, in the order of the story. -/
def candidates (s : Session) (d : State) (gate : Gate) : List Nat :=
  (s.story.events.zipIdx.filter fun entry => s.eligible d gate entry.1).map Prod.snd

/-- The one of some events that the next draw picks by weight. -/
def drawn (s : Session) (among : List Nat) : Option Nat :=
  (Lottery.pick (among.map s.weight) s.draws.next.1).bind fun k => among[k]?

/-- The event that one search selects in a document, and the draws it leaves. -/
def selected (s : Session) (d : State) : Option (Nat × Draws) :=
  match s.candidates d .hard with
  | first :: _ => some (first, s.draws)
  | [] => (s.drawn (s.candidates d .soft)).map fun index => (index, s.draws.next.2)

theorem mem_candidates {s : Session} {d : State} {gate : Gate} {index : Nat} :
    index ∈ s.candidates d gate ↔
      ∃ e, s.story.events[index]? = some e ∧ s.eligible d gate e = true := by
  simp only [candidates, List.mem_map, List.mem_filter]
  constructor
  · rintro ⟨⟨e, i⟩, ⟨hmem, heligible⟩, rfl⟩
    exact ⟨e, List.mem_zipIdx_iff_getElem?.1 hmem, heligible⟩
  · rintro ⟨e, hindex, heligible⟩
    exact ⟨(e, index), ⟨List.mem_zipIdx_iff_getElem?.2 hindex, heligible⟩, rfl⟩

theorem candidates_increasing (s : Session) (d : State) (gate : Gate) :
    (s.candidates d gate).Pairwise (· < ·) := by
  have hsub : (s.candidates d gate).Sublist (s.story.events.zipIdx.map Prod.snd) :=
    List.filter_sublist.map Prod.snd
  rw [List.zipIdx_map_snd] at hsub
  exact List.Pairwise.sublist hsub List.pairwise_lt_range'

/-- There is a winner whenever there are candidates. -/
theorem exists_drawn (s : Session) {among : List Nat} (hne : among ≠ []) :
    ∃ index ∈ among, s.drawn among = some index := by
  have hweights : among.map s.weight ≠ [] := by simpa using hne
  obtain ⟨k, hk, hlt⟩ := Lottery.exists_pickBy Decimal.floor hweights s.draws.next.1
  rw [List.length_map] at hlt
  refine ⟨among[k], List.getElem_mem hlt, ?_⟩
  rw [drawn, Lottery.pick, hk, Option.bind_some, List.getElem?_eq_getElem hlt]

theorem selected_eq_none_iff {s : Session} {d : State} :
    s.selected d = none ↔ ∀ gate, s.candidates d gate = [] := by
  unfold selected
  constructor
  · intro h
    split at h
    · exact absurd h nofun
    · rename_i hhard
      intro gate
      cases gate with
      | hard => exact hhard
      | soft =>
        by_contra hsoft
        obtain ⟨index, -, hdrawn⟩ := s.exists_drawn hsoft
        rw [hdrawn] at h
        exact absurd h nofun
  · intro h
    rw [h .hard, h .soft]
    rfl

/-- What a search selects is the first event that is eligible through the hard gate, or one that is
eligible through the soft gate while none is through the hard one. -/
theorem exists_of_selected {s : Session} {d : State} {index : Nat} {draws : Draws}
    (h : s.selected d = some (index, draws)) :
    ∃ e gate, s.story.events[index]? = some e ∧ s.eligible d gate e = true ∧
      ∀ i ∈ s.candidates d .hard, gate = .hard ∧ index ≤ i := by
  unfold selected at h
  split at h
  · rename_i first others hhard
    obtain ⟨rfl, -⟩ := Prod.mk.inj (Option.some.inj h)
    obtain ⟨e, he, heligible⟩ := mem_candidates.1 (hhard ▸ List.mem_cons_self)
    refine ⟨e, .hard, he, heligible, fun i hi => ⟨rfl, ?_⟩⟩
    -- the numbers come in the order of the story, so the head is the least of them
    have hincreasing := hhard ▸ s.candidates_increasing d .hard
    rcases List.mem_cons.1 (hhard ▸ hi) with rfl | hothers
    · exact Nat.le_refl i
    · exact Nat.le_of_lt ((List.pairwise_cons.1 hincreasing).1 i hothers)
  · rename_i hhard
    obtain ⟨i, hdrawn, heq⟩ := Option.map_eq_some_iff.1 h
    obtain ⟨rfl, -⟩ := Prod.mk.inj heq
    obtain ⟨k, -, hk⟩ := Option.bind_eq_some_iff.1 hdrawn
    obtain ⟨e, he, heligible⟩ := mem_candidates.1 (List.mem_of_getElem? hk)
    refine ⟨e, .soft, he, heligible, fun i hi => ?_⟩
    rw [hhard] at hi
    cases hi

/-! ### Searching -/

/-- The session once the event on screen is left, with another document and other draws. -/
def arrive (s : Session) (d : State) (draws : Draws) : Session :=
  { s.leave with state := d, draws }

/-- Whether no trigger of an event that may be shown fails to evaluate in a document. -/
def Evaluates (s : Session) (d : State) : Prop :=
  ∀ e ∈ s.story.events, s.excluded e.slug = false →
    ∀ gate trigger, e.triggers.get gate = some trigger →
    ∃ passed, trigger.condition.holds d = .ok passed

theorem isViewed_arrive (s : Session) (d : State) (draws : Draws) (slug : String) :
    (s.arrive d draws).isViewed slug = s.excluded slug := by
  show s.leave.viewed.contains slug = s.excluded slug
  unfold leave excluded
  cases s.currentEvent? with
  | none => simp
  | some e =>
    by_cases hrepeatable : e.repeatable = true
    · simp [hrepeatable]
    · rw [Bool.not_eq_true] at hrepeatable
      simp only [hrepeatable, Bool.false_eq_true, if_false, Option.any_some, Bool.not_false,
        Bool.true_and]
      rw [Bool.eq_iff_iff, Bool.or_eq_true, SortedSet.contains_iff_mem, SortedSet.contains_iff_mem,
        SortedSet.mem_insert, beq_iff_eq, or_comm, eq_comm]

/-- Going through the events keeps those that are eligible, by their numbers. -/
theorem availableFrom_arrive {s : Session} {d : State} {draws : Draws} {gate : Gate} {index : Nat}
    {events : List Event}
    (hholds : ∀ e ∈ events, s.excluded e.slug = false →
      ∀ trigger, e.triggers.get gate = some trigger →
      ∃ passed, trigger.condition.holds d = .ok passed) :
    (s.arrive d draws).availableFrom gate index events =
      .ok (((events.zipIdx index).filter fun entry => s.eligible d gate entry.1).map Prod.snd) := by
  induction events generalizing index with
  | nil => rfl
  | cons e rest ih =>
    have hrest := @ih (index + 1) fun other hother => hholds other (List.mem_cons_of_mem _ hother)
    rw [availableFrom, List.zipIdx_cons, List.filter_cons]
    cases htrigger : e.triggers.get gate with
    | none => simp [eligible, htrigger, hrest]
    | some trigger =>
      simp only [isViewed_arrive]
      by_cases hexcluded : s.excluded e.slug = true
      · simp [eligible, hexcluded, hrest]
      · rw [Bool.not_eq_true] at hexcluded
        obtain ⟨passed, hpassed⟩ := hholds e List.mem_cons_self hexcluded trigger htrigger
        have hstate : trigger.condition.holds (s.arrive d draws).state = .ok passed := hpassed
        have heligible : s.eligible d gate e = passed := by
          simp [eligible, hexcluded, htrigger, hpassed]
        simp only [hexcluded, Bool.false_eq_true, if_false, hstate, heligible]
        cases passed with
        | false => simpa using hrest
        | true => simp [hrest, Except.map]

theorem available_arrive {s : Session} {d : State} (hholds : s.Evaluates d) (draws : Draws)
    (gate : Gate) : (s.arrive d draws).available gate = .ok (s.candidates d gate) := by
  have hstory : (s.arrive d draws).story = s.story := (continues_leave s).story
  rw [available, hstory]
  exact availableFrom_arrive fun e he hexcluded trigger => hholds e he hexcluded gate trigger

theorem weight_arrive (s : Session) (d : State) (draws : Draws) :
    (s.arrive d draws).weight = s.weight := by
  have hstory : (s.arrive d draws).story = s.story := (continues_leave s).story
  funext index
  rw [weight, weight, hstory]

/-- One search makes the selection of its document, and only uses up a draw. -/
theorem choose_arrive {s : Session} {d : State} (hholds : s.Evaluates d) :
    (s.arrive d s.draws).choose = .ok (match s.selected d with
      | some (index, draws) => (some index, s.arrive d draws)
      | none => (none, s.arrive d s.draws)) := by
  rw [choose, available_arrive hholds, selected]
  cases s.candidates d .hard with
  | cons first others => rfl
  | nil =>
    simp only [available_arrive hholds]
    by_cases hsoft : s.candidates d .soft = []
    · rw [hsoft]
      rfl
    · obtain ⟨index, -, hdrawn⟩ := s.exists_drawn hsoft
      have hempty : (s.candidates d .soft).isEmpty = false := by simpa using hsoft
      rw [hdrawn, lottery, hempty, weight_arrive]
      rw [drawn] at hdrawn
      exact congrArg Except.ok (Prod.ext hdrawn rfl)

/-! ### Turns -/

/-- A turn counter one further; what is no number counts as zero. -/
def advanced (turn : Option Json) : Json :=
  ((Number.ofFloat? ((turn.bind Json.float?).getD 0.0 + 1.0)).map Json.num).getD .null

/-- The document of the first search: only the turn counter is advanced. -/
def turnState (s : Session) : State :=
  s.state.withGlobal turnKey (advanced (s.state.get? ["global", turnKey]))

/-- The document of the second search: the flag that there are no events is set as well. -/
def lastState (s : Session) : State :=
  s.turnState.withGlobal noEventsKey (.bool true)

theorem nextTurn_leave (s : Session) :
    s.leave.nextTurn = advanced (s.state.get? ["global", turnKey]) := by
  rw [nextTurn, turn, state_leave]
  rfl

theorem leave_eq_arrive (s : Session) (d : State) :
    { s.leave with state := d } = s.arrive d s.draws := by
  rw [arrive, leave_eq]

theorem searchAgain_arrive {s : Session} (hglobal : s.turnState.OpenGlobal)
    (hholds : s.Evaluates s.lastState) (hnone : s.selected s.turnState = none) :
    (s.arrive s.turnState s.draws).searchAgain = match s.selected s.lastState with
      | some (index, draws) => (s.arrive s.lastState draws).moveTo index
      | none => (s.arrive s.lastState s.draws).fail .noEventsAvailable [] := by
  rw [searchAgain]
  by_cases hflag : s.turnState.globalFlag noEventsKey = true
  · have hlast : s.lastState = s.turnState := State.withGlobal_of_globalFlag hglobal hflag
    have hstate : (s.arrive s.turnState s.draws).state.globalFlag noEventsKey = true := hflag
    rw [if_pos hstate, hlast, hnone]
  · have hstate : ¬(s.arrive s.turnState s.draws).state.globalFlag noEventsKey = true := hflag
    have hset : (s.arrive s.turnState s.draws).state.setGlobal noEventsKey (.bool true) =
        .ok s.lastState := State.setGlobal_eq hglobal _ _
    have harrive : ({ s.arrive s.turnState s.draws with state := s.lastState } : Session) =
        s.arrive s.lastState s.draws := rfl
    rw [if_neg hstate, hset]
    dsimp only
    rw [harrive, choose_arrive hholds]
    cases s.selected s.lastState with
    | none => rfl
    | some selection => rfl

/-- Moving to an event never says that there are no events. -/
theorem moveTo_ne_noEventsAvailable (s : Session) (index : Nat) :
    (s.moveTo index).result ≠ .error .noEventsAvailable := by
  intro h
  by_cases hindex : index < s.story.events.length
  · obtain ⟨cause, hcause⟩ := result_moveTo hindex h
    cases hcause
  · unfold moveTo at h
    rw [List.getElem?_eq_none (Nat.not_lt.1 hindex)] at h
    cases h

/-- What the searches of a turn choose: an event, the document in which it is selected and the draws
that are left.  The second document counts only when nothing is selected in the first one. -/
def Chooses (s : Session) (d : State) (index : Nat) (draws : Draws) : Prop :=
  s.selected d = some (index, draws) ∧
    (d = s.turnState ∨ s.selected s.turnState = none ∧ d = s.lastState)

/-- A turn has put an event on screen that was chosen in a document.  It is the first one that is
eligible through the hard gate, or an eligible one where there is no such event; it has run what it
does when it is shown on that document, and just the events that were excluded count as viewed. -/
structure Arrives (s : Session) (d : State) (index : Nat) (draws : Draws) (t : Session) : Prop where
  event : ∃ e gate, s.story.events[index]? = some e ∧ s.eligible d gate e = true ∧
    (∀ i ∈ s.candidates d .hard, gate = .hard ∧ index ≤ i) ∧
    t.state = (d.applyAll e.onDisplay).1
  story : t.story = s.story
  current : t.current = some index
  viewed : ∀ slug, t.isViewed slug = s.excluded slug
  draws : t.draws = draws

theorem arrives_moveTo {s : Session} {d : State} {index : Nat} {draws : Draws}
    (h : s.selected d = some (index, draws)) :
    s.Arrives d index draws ((s.arrive d draws).moveTo index).session := by
  obtain ⟨e, gate, he, heligible, hfirst⟩ := exists_of_selected h
  have hstory : (s.arrive d draws).story = s.story := (continues_leave s).story
  rw [session_moveTo (hstory ▸ he)]
  exact ⟨⟨e, gate, he, heligible, hfirst, rfl⟩, hstory, rfl, s.isViewed_arrive d draws, rfl⟩

/-- A turn moves to the event that is selected in the document with the turn counter advanced, or
else to the one selected with the flag set as well, and starts there from the same document with
only the events left behind and the draws changed.  There are no events exactly when neither
document makes one eligible.  The searches show nothing by themselves.  The event that is chosen is
on screen afterwards, and the two documents differ from the one before in the counter and in the
flag alone. -/
theorem next_eq_moveTo_selected {s : Session} (hglobal : s.state.OpenGlobal)
    (hturn : s.Evaluates s.turnState) (hlast : s.Evaluates s.lastState) :
    (s.next = match s.selected s.turnState with
      | some (index, draws) => (s.arrive s.turnState draws).moveTo index
      | none =>
        match s.selected s.lastState with
        | some (index, draws) => (s.arrive s.lastState draws).moveTo index
        | none => (s.arrive s.lastState s.draws).fail .noEventsAvailable []) ∧
      (s.next.result = .error .noEventsAvailable ↔
        ∀ gate, s.candidates s.turnState gate = [] ∧ s.candidates s.lastState gate = []) ∧
      (∀ d index draws, s.Chooses d index draws → s.Arrives d index draws s.next.session) ∧
      s.state.SetsGlobal turnKey (advanced (s.state.get? ["global", turnKey])) s.turnState ∧
      s.turnState.SetsGlobal noEventsKey (.bool true) s.lastState := by
  have hset : s.leave.state.setGlobal turnKey s.leave.nextTurn = .ok s.turnState := by
    rw [nextTurn_leave, state_leave, State.setGlobal_eq hglobal, turnState]
  have hnext : s.next = (s.arrive s.turnState s.draws).search := by
    rw [next]
    simp only [hset, leave_eq_arrive]
  have hsearch : s.next = match s.selected s.turnState with
      | some (index, draws) => (s.arrive s.turnState draws).moveTo index
      | none =>
        match s.selected s.lastState with
        | some (index, draws) => (s.arrive s.lastState draws).moveTo index
        | none => (s.arrive s.lastState s.draws).fail .noEventsAvailable [] := by
    rw [hnext, search, choose_arrive hturn]
    cases hselected : s.selected s.turnState with
    | some selection => rfl
    | none => exact searchAgain_arrive (State.OpenGlobal.withGlobal _ _) hlast hselected
  refine ⟨hsearch, ?_, ?_, State.setsGlobal_withGlobal hglobal _ _,
    State.setsGlobal_withGlobal (State.OpenGlobal.withGlobal _ _) _ _⟩
  · rw [hsearch, forall_and, ← selected_eq_none_iff, ← selected_eq_none_iff]
    cases s.selected s.turnState with
    | some selection => simp [moveTo_ne_noEventsAvailable]
    | none =>
      cases s.selected s.lastState with
      | some selection => simp [moveTo_ne_noEventsAvailable]
      | none => simp [fail]
  · rintro d index draws ⟨hselected, rfl | ⟨hnone, rfl⟩⟩
    · rw [hsearch, hselected]
      exact arrives_moveTo hselected
    · rw [hsearch, hnone, hselected]
      exact arrives_moveTo hselected

/-- An event of the storyline `a` with one trigger, which asks for the number of the turn. -/
def turnEvent (name : String) (gate : Gate) (turn : Float) : Event :=
  { event := name, storyline := "a", description := "", repeatable := false, onDisplay := []
    triggers := Triggers.none.set
      ⟨.atom (.access ⟨["global", turnKey]⟩) .equal (.number turn), 1.0⟩ gate
    actions := [] }

/-- A session on an empty document, with a hard trigger for the second turn and a soft one for the
first. -/
def firstTurn : Session :=
  begin ⟨1, "", "", [], [turnEvent "x" .hard 2.0, turnEvent "y" .soft 1.0], []⟩ (.ofList [0.5])

/-- The first turn draws the event with the soft trigger. -/
theorem next_firstTurn :
    firstTurn.state.OpenGlobal ∧ firstTurn.Evaluates firstTurn.turnState ∧
      firstTurn.Evaluates firstTurn.lastState ∧
      ∃ draws, firstTurn.next = (firstTurn.arrive firstTurn.turnState draws).moveTo 1 ∧
        firstTurn.Chooses firstTurn.turnState 1 draws ∧
        firstTurn.Arrives firstTurn.turnState 1 draws firstTurn.next.session := by
  have hglobal : firstTurn.state.OpenGlobal := fun document h => absurd h nofun
  have hevaluates : ∀ d ∈ [firstTurn.turnState, firstTurn.lastState],
      ∀ e ∈ firstTurn.story.events, ∀ trigger ∈ e.triggers.hard.toList ++ e.triggers.soft.toList,
        trigger.condition.holds d = .ok true ∨ trigger.condition.holds d = .ok false := by
    decide +kernel
  have hall : ∀ d ∈ [firstTurn.turnState, firstTurn.lastState], firstTurn.Evaluates d := by
    intro d hd e he _ gate trigger htrigger
    have hmem : trigger ∈ e.triggers.hard.toList ++ e.triggers.soft.toList := by
      cases gate with
      | hard => exact List.mem_append_left _ (Option.mem_toList.2 htrigger)
      | soft => exact List.mem_append_right _ (Option.mem_toList.2 htrigger)
    rcases hevaluates d hd e he trigger hmem with h | h
    · exact ⟨true, h⟩
    · exact ⟨false, h⟩
  have hturn := hall firstTurn.turnState (by simp)
  have hlast := hall firstTurn.lastState (by simp)
  refine ⟨hglobal, hturn, hlast, ?_⟩
  obtain ⟨hnext, -, harrives, -⟩ := next_eq_moveTo_selected hglobal hturn hlast
  have hselected : (firstTurn.selected firstTurn.turnState).map Prod.fst = some 1 := by
    decide +kernel
  obtain ⟨⟨index, draws⟩, hselection, rfl⟩ := Option.map_eq_some_iff.1 hselected
  have hchooses : firstTurn.Chooses firstTurn.turnState 1 draws := ⟨hselection, Or.inl rfl⟩
  rw [hselection] at hnext
  exact ⟨draws, hnext, hchooses, harrives _ _ _ hchooses⟩

end Session

end Narrative
