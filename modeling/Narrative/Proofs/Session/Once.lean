import Mathlib.Tactic.Common
import Mathlib.Data.List.Nodup
import Mathlib.Data.List.Perm.Subperm
import Narrative.Proofs.Session.Selection
import Narrative.Proofs.Session.Turn

/-!
# Events that are not repeatable are shown once

An event is remembered as viewed when it is left, so one that was shown is viewed or still on
screen, whatever failed in between.  A turn leaves what is on screen before it searches, and it
never finds what was viewed; so it shows every event that is not repeatable at most once.
-/

namespace Narrative.Session

/-! ### The events that turns arrive at -/

/-- A call that neither jumps to an event nor goes back to a snapshot. -/
def Call.Onward : Call → Prop
  | .moveTo _ | .restore _ => False
  | _ => True

/-- The number of the event that the next turn puts on screen. -/
def arrival? (s : Session) : Option Nat :=
  s.destination.index?

/-- The session in which a call goes on to the next turn. -/
def turnsFrom? (s : Session) : Call → Option Session
  | .start => if s.current.isSome then none else some s
  | .next => some s
  | .respond name =>
    (s.action? name).bind fun action =>
      let applied := s.apply action.operations
      match applied.result with
      | .error _ => none
      | .ok () => some applied.session
  | _ => none

/-- The numbers of the events that the turns of a run of calls put on screen, in order. -/
def arrivals (s : Session) : List Call → List Nat
  | [] => []
  | c :: calls => ((s.turnsFrom? c).bind arrival?).toList ++ (s.call c).session.arrivals calls

theorem arrivals_append (s : Session) (before after : List Call) :
    s.arrivals (before ++ after) = s.arrivals before ++ (s.run before).arrivals after := by
  induction before generalizing s with
  | nil => rfl
  | cons c before ih =>
    have hrun : s.run (c :: before) = (s.call c).session.run before := rfl
    rw [List.cons_append, arrivals, arrivals, ih, hrun, List.append_assoc]

theorem run_append (s : Session) (before after : List Call) :
    s.run (before ++ after) = (s.run before).run after :=
  List.foldl_append

/-- A turn arrives at an event that was not viewed when the one before it was left, or it fails and
what was on screen stays there. -/
theorem next_cases (s : Session) :
    (∃ index e, s.arrival? = some index ∧ s.story.events[index]? = some e ∧
        s.leave.isViewed e.slug = false ∧
        ({ s.leave with current := some index } : Session).Unmoved s.next.session) ∨
      (s.arrival? = none ∧ s.leave.Unmoved s.next.session ∧ ∃ e, s.next.result = .error e) := by
  have hfrom := from_destination s
  have hturn := turn_destination s
  have hstory := (continues_leave s).story
  unfold arrival?
  cases hdestination : s.destination with
  | event origin index =>
    rw [hdestination] at hfrom hturn
    obtain ⟨hunmoved, e, he, hviewed⟩ := hfrom
    refine Or.inl ⟨index, e, rfl, hstory ▸ he, hviewed, ?_⟩
    have hlength : index < origin.story.events.length := by
      rw [hunmoved.story]
      exact (List.getElem?_eq_some_iff.1 he).1
    have hmove := unmoved_moveTo hlength
    rw [← hturn]
    exact ⟨hmove.story.trans hunmoved.story, hmove.viewed.trans hunmoved.viewed, hmove.current⟩
  | nowhere left e =>
    rw [hdestination] at hfrom hturn
    refine Or.inr ⟨rfl, ?_, e, ?_⟩
    · rw [← hturn]
      exact hfrom.1
    · rw [← hturn]
      rfl

/-- A call that goes on to the next turn leaves what that turn leaves. -/
theorem call_of_turnsFrom {s t : Session} {c : Call} (h : s.turnsFrom? c = some t) :
    s.Unmoved t ∧ (s.call c).session = t.next.session := by
  cases c with
  | start =>
    rw [turnsFrom?] at h
    split at h
    · exact absurd h nofun
    · rename_i hcurrent
      obtain rfl := Option.some.inj h
      refine ⟨.refl s, ?_⟩
      rw [call, start, if_neg hcurrent]
  | next =>
    obtain rfl := Option.some.inj h
    exact ⟨.refl s, rfl⟩
  | respond name =>
    obtain ⟨action, haction, h⟩ := Option.bind_eq_some_iff.1 h
    have happly := unmoved_apply s action.operations
    rw [call, respond_eq, haction, session_play]
    dsimp only at h
    cases hresult : (s.apply action.operations).result with
    | error e =>
      rw [hresult] at h
      exact absurd h nofun
    | ok u =>
      rw [hresult] at h
      obtain rfl := Option.some.inj h
      exact ⟨happly, rfl⟩
  | _ => exact absurd h nofun

/-- A call that reaches no next turn, and does not jump, leaves the event on screen and the viewed
ones as they are. -/
theorem unmoved_call {s : Session} {c : Call} (h : s.turnsFrom? c = none) (hc : c.Onward) :
    s.Unmoved (s.call c).session := by
  cases c with
  | start =>
    rw [turnsFrom?] at h
    split at h
    · rename_i hcurrent
      rw [call, start, if_pos hcurrent]
      exact .refl s
    · exact absurd h nofun
  | next => exact absurd h nofun
  | respond name =>
    rw [call, respond_eq]
    cases haction : s.action? name with
    | none => exact .refl s
    | some action =>
      rw [turnsFrom?, haction, Option.bind_some] at h
      dsimp only at h ⊢
      rw [session_play]
      cases hresult : (s.apply action.operations).result with
      | error e => exact unmoved_apply s action.operations
      | ok u =>
        rw [hresult] at h
        exact absurd h nofun
  | apply operations => exact unmoved_apply s operations
  | redisplay =>
    show s.Unmoved s.redisplay.session
    rw [session_redisplay]
    exact .refl s
  | setState state => exact (Unmoved.refl s).withState state
  | moveTo index => exact absurd hc id
  | restore saved => exact absurd hc id

/-! ### What is on screen -/

/-- After a turn the event that it arrives at is on screen, or else the one before. -/
theorem current_next (s : Session) : s.next.session.current = s.arrival?.or s.current := by
  rcases next_cases s with ⟨index, e, harrival, -, -, hunmoved⟩ | ⟨harrival, hunmoved, -⟩
  · rw [harrival, hunmoved.current]
    rfl
  · rw [harrival, hunmoved.current, current_leave]
    rfl

theorem current_call {s : Session} {c : Call} (hc : c.Onward) :
    (s.call c).session.current = ((s.turnsFrom? c).bind arrival?).or s.current := by
  cases hturns : s.turnsFrom? c with
  | none =>
    rw [(unmoved_call hturns hc).current]
    rfl
  | some t =>
    obtain ⟨hunmoved, hsession⟩ := call_of_turnsFrom hturns
    rw [hsession, current_next, hunmoved.current, Option.bind_some]

/-- After a run of calls the last event that was arrived at is on screen. -/
theorem current_run {s : Session} {calls : List Call} (hcalls : ∀ c ∈ calls, c.Onward) :
    (s.run calls).current = (s.arrivals calls).getLast?.or s.current := by
  induction calls generalizing s with
  | nil => rfl
  | cons c calls ih =>
    have hrun : s.run (c :: calls) = (s.call c).session.run calls := rfl
    have hlast : ∀ o : Option Nat, o.toList.getLast? = o := by
      intro o
      cases o <;> rfl
    rw [hrun, ih fun other hother => hcalls other (List.mem_cons_of_mem _ hother),
      current_call (hcalls c List.mem_cons_self), arrivals, List.getLast?_append, hlast,
      Option.or_assoc]

/-! ### What a session remembers -/

/-- What a session remembers of the events that turns have put on screen so far: each one that is
not repeatable was put there once and is viewed or still there, and nothing else is viewed. -/
structure Remembers (s : Session) (history : List Nat) : Prop where
  placed : ∀ index ∈ history, index < s.story.events.length
  once : ∀ index e, s.story.events[index]? = some e → e.repeatable = false →
    history.count index ≤ 1
  seen : ∀ index ∈ history, ∀ e, s.story.events[index]? = some e → e.repeatable = false →
    s.isViewed e.slug = true ∨ s.current = some index
  kept : ∀ slug, s.isViewed slug = true →
    ∃ e ∈ s.story.events, e.repeatable = false ∧ e.slug = slug

variable {s t : Session} {history : List Nat}

theorem isViewed_leave (s : Session) (slug : String) :
    s.leave.isViewed slug = true ↔ s.isViewed slug = true ∨
      ∃ e, s.currentEvent? = some e ∧ e.repeatable = false ∧ e.slug = slug := by
  have hleave : s.leave.isViewed slug = s.excluded slug := isViewed_arrive s s.state s.draws slug
  rw [hleave, excluded, Bool.or_eq_true]
  refine or_congr Iff.rfl ?_
  cases s.currentEvent? with
  | none => simp
  | some e => simp

theorem Unmoved.isViewed (h : s.Unmoved t) (slug : String) : t.isViewed slug = s.isViewed slug := by
  rw [Session.isViewed, Session.isViewed, h.viewed]

theorem Unmoved.remembers (h : s.Unmoved t) (hs : s.Remembers history) : t.Remembers history where
  placed index hindex := by
    rw [h.story]
    exact hs.placed index hindex
  once index e he hrepeatable := hs.once index e (h.story ▸ he) hrepeatable
  seen index hindex e he hrepeatable := by
    rw [h.isViewed, h.current]
    exact hs.seen index hindex e (h.story ▸ he) hrepeatable
  kept slug hslug := by
    rw [h.story]
    exact hs.kept slug (h.isViewed slug ▸ hslug)

/-- What was on screen and is not repeatable is viewed once it is left. -/
theorem Remembers.leave (h : s.Remembers history) :
    s.leave.Remembers history ∧
      ∀ index ∈ history, ∀ e, s.story.events[index]? = some e → e.repeatable = false →
        s.leave.isViewed e.slug = true := by
  have hstory := (continues_leave s).story
  have hviewed : ∀ index ∈ history, ∀ e, s.story.events[index]? = some e →
      e.repeatable = false → s.leave.isViewed e.slug = true := by
    intro index hindex e he hrepeatable
    rw [isViewed_leave]
    rcases h.seen index hindex e he hrepeatable with hslug | hcurrent
    · exact Or.inl hslug
    · refine Or.inr ⟨e, ?_, hrepeatable, rfl⟩
      rw [currentEvent?, hcurrent, Option.bind_some, he]
  refine ⟨⟨?_, ?_, ?_, ?_⟩, hviewed⟩
  · rw [hstory]
    exact h.placed
  · rw [hstory]
    exact h.once
  · rw [hstory]
    exact fun index hindex e he hrepeatable => Or.inl (hviewed index hindex e he hrepeatable)
  · intro slug hslug
    rw [hstory]
    rcases (isViewed_leave s slug).1 hslug with hslug | ⟨e, he, hrepeatable, rfl⟩
    · exact h.kept slug hslug
    · obtain ⟨index, -, hindex⟩ := Option.bind_eq_some_iff.1 he
      exact ⟨e, List.mem_of_getElem? hindex, hrepeatable, rfl⟩

/-- The turn of a session adds the event that it arrives at, which was not there before. -/
theorem Remembers.next (h : s.Remembers history) :
    s.next.session.Remembers (history ++ s.arrival?.toList) := by
  obtain ⟨hleave, hviewed⟩ := h.leave
  rcases next_cases s with ⟨index, e, harrival, he, hfresh, hunmoved⟩ | ⟨harrival, hunmoved, -⟩
  · rw [harrival]
    refine hunmoved.remembers ⟨?_, ?_, ?_, hleave.kept⟩
    · intro other hother
      rcases List.mem_append.1 hother with hother | hother
      · exact hleave.placed other hother
      · obtain rfl := List.mem_singleton.1 hother
        show other < s.leave.story.events.length
        rw [(continues_leave s).story]
        exact (List.getElem?_eq_some_iff.1 he).1
    · intro other f hf hrepeatable
      rw [(continues_leave s).story] at hf
      rw [Option.toList_some, List.count_append]
      have honce := h.once other f hf hrepeatable
      by_cases heq : index = other
      · subst heq
        -- what is not viewed when the screen is left was never shown
        have hnew : index ∉ history := by
          intro hmem
          obtain rfl : f = e := Option.some.inj (hf.symm.trans he)
          rw [hviewed index hmem f hf hrepeatable] at hfresh
          exact absurd hfresh (by decide)
        have hcount : List.count index history = 0 := List.count_eq_zero.2 hnew
        have hlast : List.count index [index] = 1 := List.count_singleton_self
        omega
      · rw [List.count_singleton, if_neg (by simpa using heq)]
        exact honce
    · intro other hother f hf hrepeatable
      rcases List.mem_append.1 hother with hother | hother
      · rw [(continues_leave s).story] at hf
        exact Or.inl (hviewed other hother f hf hrepeatable)
      · obtain rfl := List.mem_singleton.1 hother
        exact Or.inr rfl
  · rw [harrival, Option.toList_none, List.append_nil]
    exact hunmoved.remembers hleave

theorem Remembers.call (h : s.Remembers history) {c : Call} (hc : c.Onward) :
    (s.call c).session.Remembers (history ++ ((s.turnsFrom? c).bind arrival?).toList) := by
  cases hturns : s.turnsFrom? c with
  | none =>
    rw [Option.bind_none, Option.toList_none, List.append_nil]
    exact (unmoved_call hturns hc).remembers h
  | some t =>
    obtain ⟨hunmoved, hsession⟩ := call_of_turnsFrom hturns
    rw [Option.bind_some, hsession]
    exact (hunmoved.remembers h).next

theorem Remembers.run (h : s.Remembers history) {calls : List Call}
    (hcalls : ∀ c ∈ calls, c.Onward) :
    (s.run calls).Remembers (history ++ s.arrivals calls) := by
  induction calls generalizing s history with
  | nil =>
    rw [arrivals, List.append_nil]
    exact h
  | cons c calls ih =>
    have hrun : s.run (c :: calls) = (s.call c).session.run calls := rfl
    rw [arrivals, hrun, ← List.append_assoc]
    exact ih (h.call (hcalls c List.mem_cons_self))
      fun other hother => hcalls other (List.mem_cons_of_mem _ hother)

theorem remembers_begin (story : Story) (draws : Draws) : (begin story draws).Remembers [] where
  placed _ hindex := absurd hindex List.not_mem_nil
  once _ _ _ _ := Nat.zero_le 1
  seen _ hindex := absurd hindex List.not_mem_nil
  kept slug hslug := by
    rw [isViewed, SortedSet.contains_iff_mem] at hslug
    exact absurd hslug List.not_mem_nil

/-! ### What stays viewed -/

theorem isViewed_next {slug : String} (h : s.isViewed slug = true) :
    s.next.session.isViewed slug = true := by
  have hleave : s.leave.isViewed slug = true := (isViewed_leave s slug).2 (Or.inl h)
  rcases next_cases s with ⟨index, e, -, -, -, hunmoved⟩ | ⟨-, hunmoved, -⟩
  · rw [hunmoved.isViewed]
    exact hleave
  · rw [hunmoved.isViewed]
    exact hleave

theorem isViewed_run {slug : String} {calls : List Call} (hcalls : ∀ c ∈ calls, c.Onward)
    (h : s.isViewed slug = true) : (s.run calls).isViewed slug = true := by
  induction calls generalizing s with
  | nil => exact h
  | cons c calls ih =>
    refine ih (fun other hother => hcalls other (List.mem_cons_of_mem _ hother)) ?_
    cases hturns : s.turnsFrom? c with
    | none =>
      rw [(unmoved_call hturns (hcalls c List.mem_cons_self)).isViewed]
      exact h
    | some t =>
      obtain ⟨hunmoved, hsession⟩ := call_of_turnsFrom hturns
      have hnext : t.next.session.isViewed slug = true := by
        refine isViewed_next ?_
        rw [hunmoved.isViewed]
        exact h
      rwa [← hsession] at hnext

/-! ### Stories that come to an end -/

/-- Without repeatable events no event is arrived at twice. -/
theorem Remembers.length_le (h : s.Remembers history)
    (hrepeatable : ∀ e ∈ s.story.events, e.repeatable = false) :
    history.length ≤ s.story.events.length := by
  have hnodup : history.Nodup := by
    refine List.nodup_iff_count_le_one.2 fun index => ?_
    by_cases hindex : index ∈ history
    · have hlength := h.placed index hindex
      exact h.once index _ (List.getElem?_eq_getElem hlength)
        (hrepeatable _ (List.getElem_mem hlength))
    · rw [List.count_eq_zero.2 hindex]
      exact Nat.zero_le 1
  have hsubset : history ⊆ List.range s.story.events.length :=
    fun index hindex => List.mem_range.2 (h.placed index hindex)
  have hlength := (List.subperm_of_subset hnodup hsubset).length_le
  rwa [List.length_range] at hlength

/-- Along every run of calls from the start of a story that does not jump, the event on screen is
the last one that was arrived at, an event that is not repeatable is arrived at once at most, no
viewed event is forgotten, and only events that are not repeatable are viewed.  When no event is
repeatable, turns arrive at events no more often than there are events, and then no turn succeeds
any more. -/
theorem arrivals_at_most_once (story : Story) (draws : Draws) {calls : List Call}
    (hcalls : ∀ c ∈ calls, c.Onward) :
    let s := (build story draws).session
    (s.run calls).current = (s.arrivals calls).getLast? ∧
    (∀ index e, story.events[index]? = some e → e.repeatable = false →
      (s.arrivals calls).count index ≤ 1) ∧
    (∀ before after, calls = before ++ after → ∀ slug,
      (s.run before).isViewed slug = true → (s.run calls).isViewed slug = true) ∧
    (∀ slug, (s.run calls).isViewed slug = true →
      ∃ e ∈ story.events, e.repeatable = false ∧ e.slug = slug) ∧
    ((∀ e ∈ story.events, e.repeatable = false) →
      (s.arrivals calls).length ≤ story.events.length ∧
      ((s.arrivals calls).length = story.events.length →
        ∀ later, (∀ c ∈ later, c.Onward) →
          ∃ e, ((s.run calls).run later).next.result = .error e)) := by
  intro s
  have hstory : ∀ calls, (s.run calls).story = story := fun calls => (continues_run s calls).story
  have hruns : ∀ {calls : List Call}, (∀ c ∈ calls, c.Onward) →
      (s.run calls).Remembers (s.arrivals calls) := fun hcalls =>
    (remembers_begin story draws).run hcalls
  have hremembers := hruns hcalls
  refine ⟨?_, ?_, ?_, ?_, fun hrepeatable => ⟨?_, ?_⟩⟩
  · rw [current_run hcalls]
    exact Option.or_none
  · intro index e he
    exact hremembers.once index e ((hstory calls).symm ▸ he)
  · rintro before after rfl slug hslug
    rw [run_append]
    exact isViewed_run (fun c hc => hcalls c (List.mem_append_right _ hc)) hslug
  · intro slug hslug
    rw [← hstory calls]
    exact hremembers.kept slug hslug
  · rw [← hstory calls]
    exact hremembers.length_le ((hstory calls).symm ▸ hrepeatable)
  · intro hall later hlater
    rw [← run_append]
    rcases next_cases (s.run (calls ++ later)) with ⟨index, e, harrival, -⟩ | ⟨-, -, herror⟩
    · -- one more arrival would be one too many
      have honward : ∀ c ∈ calls ++ later ++ [Call.next], c.Onward := by
        intro c hc
        rcases List.mem_append.1 hc with hc | hc
        · exact (List.mem_append.1 hc).elim (hcalls c) (hlater c)
        · exact List.mem_singleton.1 hc ▸ trivial
      have hlength := (hruns honward).length_le ((hstory _).symm ▸ hrepeatable)
      have hlast : (s.run (calls ++ later)).arrivals [Call.next] = [index] := by
        rw [arrivals, turnsFrom?, Option.bind_some, harrival]
        rfl
      rw [hstory, arrivals_append, hlast, arrivals_append] at hlength
      simp only [List.length_append, List.length_singleton] at hlength
      omega
    · exact herror

/-- An event that can be shown in every turn, but once only, and runs some operations then. -/
def passingEvent (name : String) (onDisplay : List Operation) : Event :=
  { event := name, storyline := "a", description := name, repeatable := false, onDisplay
    triggers := Triggers.none.set ⟨.atom .null .equal .null, 1.0⟩ .hard
    actions := [("Go", ⟨[], none⟩)] }

/-- A story of two events, the first of which cannot be shown properly. -/
def stumblingStory : Story :=
  ⟨1, "", "", [],
    [passingEvent "x" [⟨⟨["global", "list"]⟩, .append, .null⟩], passingEvent "y" []], []⟩

/-- Calls that fail in between: showing the first event, starting again, and an unknown action. -/
def stumblingCalls : List Call :=
  [.start, .start, .respond "Jump", .respond "Go", .redisplay]

/-- Both events are arrived at once, the first one although it is not shown properly, and then the
turns of the story are over. -/
theorem arrivals_stumblingStory :
    (∀ c ∈ stumblingCalls, c.Onward) ∧
      let s := (build stumblingStory (.ofList [])).session
      s.arrivals stumblingCalls = [0, 1] ∧
        ∃ e, ((s.run stumblingCalls).run [.setState ⟨[]⟩]).next.result = .error e := by
  have honward : ∀ c ∈ stumblingCalls, c.Onward := by
    simp [stumblingCalls, Call.Onward]
  obtain ⟨-, -, -, -, hend⟩ := arrivals_at_most_once stumblingStory (.ofList []) honward
  have harrivals :
      (build stumblingStory (.ofList [])).session.arrivals stumblingCalls = [0, 1] := by
    decide +kernel
  have hrepeatable : ∀ e ∈ stumblingStory.events, e.repeatable = false := by decide +kernel
  refine ⟨honward, harrivals, (hend hrepeatable).2 (harrivals ▸ rfl) [.setState ⟨[]⟩] ?_⟩
  intro c hc
  obtain rfl := List.mem_singleton.1 hc
  trivial

end Narrative.Session
