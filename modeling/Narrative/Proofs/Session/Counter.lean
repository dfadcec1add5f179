import Mathlib.Tactic.Common
import Narrative.Proofs.Decimal.Whole
import Narrative.Proofs.Session.Once
import Narrative.Proofs.Session.Screen
import Narrative.Proofs.Session.WellFormed
import Narrative.Proofs.State.Frame

/-!
# The turn counter counts turns

The counter is a number in the document, and operations write to the document.  But a number is kept
by every write that goes neither to it nor to a level above it, so only the turns themselves move
the counter, each by one, whatever comes of them.
-/

namespace Narrative

open Json

/-! ### Operations beside the counter -/

/-- An operation that assigns neither the turn counter nor all of `global`. -/
def Operation.Spares (o : Operation) : Prop :=
  o.target.segments ≠ ["global"] ∧ o.target.segments ≠ ["global", turnKey]

namespace State

variable {s t : State} {n : Nat}

/-- Whether the turn counter says a number. -/
def Counted (s : State) (n : Nat) : Prop :=
  s.get? ["global", turnKey] = some (.nat n)

theorem Counted.exists_global (h : s.Counted n) :
    ∃ globals, s.entries.lookup "global" = some (.obj globals) := by
  obtain ⟨below, hbelow, hat⟩ := Option.bind_eq_some_iff.1 h
  obtain ⟨found, hfound, -⟩ := Option.bind_eq_some_iff.1 hat
  cases below with
  | obj globals => exact ⟨globals, hbelow⟩
  | arr items =>
    have hindex : index? turnKey = none := by decide +kernel
    rw [child?, hindex] at hfound
    cases hfound
  | _ => cases hfound

theorem Counted.openGlobal (h : s.Counted n) : s.OpenGlobal := by
  obtain ⟨globals, hglobals⟩ := h.exists_global
  intro document hdocument
  obtain rfl : .obj globals = document := Option.some.inj (hglobals.symm.trans hdocument)
  rfl

/-- Only the counter itself and the levels above it lie on the way to the counter. -/
theorem Counted.eq_of_course (h : s.Counted n) {target below : List String}
    (hcourse : s.root.course ["global", turnKey] target = .through below) :
    target = [] ∨ target = ["global"] ∨ target = ["global", turnKey] := by
  obtain ⟨globals, hglobals⟩ := h.exists_global
  cases target with
  | nil => exact Or.inl rfl
  | cons name target =>
    rw [course] at hcourse
    split at hcourse
    case isFalse => cases hcourse
    rename_i hname
    obtain rfl : "global" = name := eq_of_beq hname
    have hchild : s.root.child? "global" = some (.obj globals) := hglobals
    rw [hchild, Option.getD_some] at hcourse
    cases target with
    | nil => exact Or.inr (Or.inl rfl)
    | cons key target =>
      rw [course] at hcourse
      split at hcourse
      case isFalse => cases hcourse
      rename_i hkey
      obtain rfl : turnKey = key := eq_of_beq hkey
      cases target with
      | nil => exact Or.inr (Or.inr rfl)
      | cons next target => cases hcourse

theorem Counted.apply {o : Operation} (h : s.Counted n) (ho : o.Spares)
    (happly : s.apply o = .ok t) : t.Counted n := by
  obtain ⟨value, hwrite⟩ := exists_write_of_apply happly
  obtain ⟨key, rest, htarget, -⟩ := exists_setAt_of_write hwrite
  refine get?_write_of_scalar h ⟨nofun, nofun⟩ hwrite fun below hcourse => ?_
  rcases h.eq_of_course hcourse with hnil | hglobal | hcounter
  · rw [htarget] at hnil
    cases hnil
  · exact ho.1 hglobal
  · exact ho.2 hcounter

theorem Counted.applyAll {operations : List Operation} (h : s.Counted n)
    (ho : ∀ o ∈ operations, o.Spares) : (s.applyAll operations).1.Counted n := by
  induction operations generalizing s with
  | nil => exact h
  | cons o rest ih =>
    obtain ⟨hfirst, hrest⟩ := List.forall_mem_cons.1 ho
    rw [State.applyAll]
    split
    · exact h
    · rename_i t happly
      exact ih (h.apply hfirst happly) hrest

/-- The flag of the second search leaves the counter as it is. -/
theorem Counted.setFlag (h : s.Counted n) {value : Json}
    (hset : s.setGlobal noEventsKey value = .ok t) : t.Counted n := by
  rw [setGlobal_eq h.openGlobal] at hset
  obtain rfl := Except.ok.inj hset
  rw [Counted, get?_withGlobal_of_ne h.openGlobal (by decide)]
  exact h

theorem Counted.advance (h : s.Counted n) :
    ∃ t, s.setGlobal turnKey (.nat (n + 1)) = .ok t ∧ t.Counted (n + 1) :=
  ⟨_, setGlobal_eq h.openGlobal _ _, get?_withGlobal_self _ _ _⟩

end State

/-! ### Turns -/

namespace Session

variable {s t : Session} {n : Nat}

theorem counted_apply (h : s.state.Counted n) {operations : List Operation}
    (ho : ∀ o ∈ operations, o.Spares) : (s.apply operations).session.state.Counted n := by
  rw [session_apply]
  exact h.applyAll ho

theorem counted_moveTo (h : s.state.Counted n) (hs : ∀ o ∈ s.story.operations, o.Spares)
    (index : Nat) : (s.moveTo index).session.state.Counted n := by
  cases hevent : s.story.events[index]? with
  | none =>
    unfold moveTo
    rw [hevent]
    exact h
  | some event =>
    rw [session_moveTo hevent]
    exact h.applyAll fun o ho =>
      hs o (Story.mem_operations_of_display (List.mem_of_getElem? hevent) ho)

/-- The turn that the counter says. -/
theorem turn_of_counted (h : s.state.Counted n) : s.turn = Float.ofNat n := by
  rw [turn, State.globalNumber, h]
  rfl

theorem nextTurn_of_counted (h : s.state.Counted n) (hn : n + 1 < 9 * 10 ^ 15) :
    s.nextTurn = .nat (n + 1) := by
  rw [nextTurn, turn_of_counted h, Number.ofFloat?_ofNat_add_one hn]
  rfl

/-- The searches of a turn begin with the counter one further, and leave it there. -/
theorem counted_destination (h : s.state.Counted n) (hn : n + 1 < 9 * 10 ^ 15) :
    s.destination.state.Counted (n + 1) := by
  have hleave : s.leave.state.Counted n := by rwa [state_leave]
  obtain ⟨t, hset, hcounted⟩ := h.advance
  have hstate := state_destination s
  rw [nextTurn_of_counted hleave hn, hset] at hstate
  rcases hstate with hsame | hflag
  · rw [hsame]
    exact hcounted
  · exact hcounted.setFlag hflag

theorem counted_next (h : s.state.Counted n) (hs : ∀ o ∈ s.story.operations, o.Spares)
    (hn : n + 1 < 9 * 10 ^ 15) : s.next.session.state.Counted (n + 1) := by
  have hcounted := counted_destination h hn
  have hfrom := from_destination s
  rw [← turn_destination]
  cases hdestination : s.destination with
  | event origin index =>
    rw [hdestination] at hcounted hfrom
    have hstory : origin.story = s.story := hfrom.1.story.trans (continues_leave s).story
    exact counted_moveTo hcounted (hstory ▸ hs) index
  | nowhere left e =>
    rw [hdestination] at hcounted
    exact hcounted

/-! ### Calls -/

/-- A call by which the host itself leaves the counter to the turns. -/
def Call.Spares : Call → Prop
  | .apply operations => ∀ o ∈ operations, o.Spares
  | .setState _ | .restore _ => False
  | _ => True

/-- Whether a call begins a turn: one that asks for the next turn, a start with nothing on screen,
and an action whose operations all succeed. -/
def begins (s : Session) : Call → Bool
  | .next => true
  | .start => s.current.isNone
  | .respond name =>
    match s.action? name with
    | none => false
    | some action =>
      match (s.apply action.operations).result with
      | .error _ => false
      | .ok () => true
  | _ => false

theorem begins_eq (s : Session) (c : Call) : s.begins c = (s.turnsFrom? c).isSome := by
  cases c with
  | start =>
    rw [begins, turnsFrom?]
    cases s.current <;> rfl
  | respond name =>
    rw [begins, turnsFrom?]
    cases s.action? name with
    | none => rfl
    | some action =>
      rw [Option.bind_some]
      dsimp only
      cases (s.apply action.operations).result <;> rfl
  | _ => rfl

/-- How many turns a run of calls begins. -/
def turnsBegun (s : Session) : List Call → Nat
  | [] => 0
  | c :: calls => (s.begins c).toNat + (s.call c).session.turnsBegun calls

theorem counted_apply_action (h : s.state.Counted n) (hs : ∀ o ∈ s.story.operations, o.Spares)
    {name : String} {action : Action} (haction : s.action? name = some action) :
    (s.apply action.operations).session.state.Counted n := by
  obtain ⟨event, hevent, hmem⟩ := mem_of_action? haction
  exact counted_apply h fun o ho => hs o (Story.mem_operations_of_action hevent hmem ho)

/-- What happens before a turn leaves the counter as it is. -/
theorem counted_of_turnsFrom (h : s.state.Counted n) (hs : ∀ o ∈ s.story.operations, o.Spares)
    {c : Call} (hturns : s.turnsFrom? c = some t) : t.state.Counted n := by
  cases c with
  | start =>
    rw [turnsFrom?] at hturns
    split at hturns
    · cases hturns
    · exact Option.some.inj hturns ▸ h
  | next => exact Option.some.inj hturns ▸ h
  | respond name =>
    obtain ⟨action, haction, hturns⟩ := Option.bind_eq_some_iff.1 hturns
    have happly := counted_apply_action h hs haction
    dsimp only at hturns
    split at hturns
    · cases hturns
    · exact Option.some.inj hturns ▸ happly
  | _ => cases hturns

/-- A call that begins no turn leaves the counter as it is. -/
theorem counted_of_not_begins (h : s.state.Counted n) (hs : ∀ o ∈ s.story.operations, o.Spares)
    {c : Call} (hc : c.Spares) (hturns : s.turnsFrom? c = none) :
    (s.call c).session.state.Counted n := by
  cases c with
  | start =>
    rw [turnsFrom?] at hturns
    split at hturns
    · rename_i hcurrent
      rw [call, start, if_pos hcurrent]
      exact h
    · cases hturns
  | next => cases hturns
  | respond name =>
    rw [call, respond_eq]
    cases haction : s.action? name with
    | none => exact h
    | some action =>
      have happly := counted_apply_action h hs haction
      rw [turnsFrom?, haction, Option.bind_some] at hturns
      dsimp only at hturns ⊢
      rw [session_play]
      cases hresult : (s.apply action.operations).result with
      | error e => exact happly
      | ok u =>
        rw [hresult] at hturns
        cases hturns
  | moveTo index => exact counted_moveTo h hs index
  | apply operations => exact counted_apply h hc
  | redisplay =>
    show s.redisplay.session.state.Counted n
    rw [session_redisplay]
    exact h
  | setState state => exact absurd hc id
  | restore saved => exact absurd hc id

/-- A call moves the counter on by the turn that it begins, whatever its result. -/
theorem counted_call (h : s.state.Counted n) (hs : ∀ o ∈ s.story.operations, o.Spares) {c : Call}
    (hc : c.Spares) (hn : n + (s.begins c).toNat < 9 * 10 ^ 15) :
    (s.call c).session.state.Counted (n + (s.begins c).toNat) := by
  rw [begins_eq] at hn ⊢
  cases hturns : s.turnsFrom? c with
  | none => exact counted_of_not_begins h hs hc hturns
  | some t =>
    obtain ⟨hunmoved, hsession⟩ := call_of_turnsFrom hturns
    rw [hturns] at hn
    rw [hsession]
    exact counted_next (counted_of_turnsFrom h hs hturns) (hunmoved.story.symm ▸ hs) hn

/-- A run of calls moves the counter on by the turns that it begins. -/
theorem counted_run {calls : List Call} (h : s.state.Counted n)
    (hs : ∀ o ∈ s.story.operations, o.Spares) (hcalls : ∀ c ∈ calls, c.Spares)
    (hn : n + s.turnsBegun calls < 9 * 10 ^ 15) :
    (s.run calls).state.Counted (n + s.turnsBegun calls) := by
  induction calls generalizing s n with
  | nil => exact h
  | cons c calls ih =>
    obtain ⟨hc, hcalls⟩ := List.forall_mem_cons.1 hcalls
    rw [turnsBegun, ← Nat.add_assoc] at hn ⊢
    have hcall := counted_call h hs hc (by omega)
    have hstory : (s.call c).session.story = s.story := (continues_call s c).story
    exact ih hcall (hstory.symm ▸ hs) hcalls hn

/-! ### Compiled stories -/

/-- A statement goes below a root, so it never assigns all of `global`. -/
theorem spares_of_written {o : Operation} (h : o.Written)
    (hne : o.target.segments ≠ ["global", turnKey]) : o.Spares := by
  obtain ⟨name, key, rest, hsegments, -⟩ := h.wellFormed.1
  refine ⟨?_, hne⟩
  rw [hsegments]
  exact fun hglobal => absurd (List.cons.inj hglobal).2 (List.cons_ne_nil key rest)

theorem counted_build {files : Files Id} {root : String} {layout : Layout} {story : Story}
    (hstory : (Bundle.story files root layout).run = .ok story) (draws : Draws) :
    (build story draws).session.state.Counted 0 := by
  obtain ⟨d, config, names, made, -, -, -, -, rfl⟩ := Bundle.exists_of_story hstory
  rfl

/-- Behind every run of calls in which no operation assigns the turn counter, and the host does not
replace the document or all of `global`, the turn is the number of turns that the run has begun,
whether they showed an event or failed. -/
theorem turn_eq_turnsBegun {files : Files Id} {root : String} {layout : Layout} {story : Story}
    (hstory : (Bundle.story files root layout).run = .ok story)
    (hoperations : ∀ o ∈ story.operations, o.target.segments ≠ ["global", turnKey])
    (draws : Draws) {calls : List Call} (hcalls : ∀ c ∈ calls, c.Spares)
    (hturns : (build story draws).session.turnsBegun calls < 9 * 10 ^ 15) :
    let s := (build story draws).session
    (s.run calls).turn = Float.ofNat (s.turnsBegun calls) ∧
      Decimal.whole? (s.run calls).turn = some (s.turnsBegun calls : Int) := by
  intro s
  have hspares : ∀ o ∈ s.story.operations, o.Spares := fun o ho =>
    spares_of_written ((Bundle.wellFormed_story hstory).operations o ho) (hoperations o ho)
  have hcounted := counted_run (counted_build hstory draws) hspares hcalls (by rwa [Nat.zero_add])
  rw [Nat.zero_add] at hcounted
  rw [turn_of_counted hcounted]
  exact ⟨rfl, Decimal.whole?_ofNat (Nat.lt_trans hturns (by decide))⟩

/-- A host that lets the event of `Bundle.misleadingStory` happen, starts twice, plays its action,
which leads to no event, jumps back to the event and asks for the next turn. -/
def threeTurns : List Call :=
  [.apply [⟨⟨["global", "n"]⟩, .set, .number 1.0⟩], .start, .start, .respond "Go", .moveTo 0, .next]

theorem turn_threeTurns :
    let s := (build Bundle.misleadingStory ⟨fun _ => 0, 0⟩).session
    (Bundle.story Bundle.misleadingFolder.files "story" .standard).run =
        .ok Bundle.misleadingStory ∧
      (∀ o ∈ Bundle.misleadingStory.operations, o.target.segments ≠ ["global", turnKey]) ∧
      (∀ c ∈ threeTurns, c.Spares) ∧ s.turnsBegun threeTurns = 3 ∧
      (s.run threeTurns).turn = Float.ofNat 3 ∧
      Decimal.whole? (s.run threeTurns).turn = some 3 := by
  intro s
  have hoperations :
      ∀ o ∈ Bundle.misleadingStory.operations, o.target.segments ≠ ["global", turnKey] := by
    decide +kernel
  have hcalls : ∀ c ∈ threeTurns, c.Spares := by
    simp [threeTurns, Call.Spares, Operation.Spares, turnKey]
  have hturns : s.turnsBegun threeTurns = 3 := by decide +kernel
  obtain ⟨hturn, hwhole⟩ := turn_eq_turnsBegun Bundle.story_misleadingFolder hoperations
    ⟨fun _ => 0, 0⟩ hcalls (by rw [hturns]; decide)
  rw [hturns] at hturn hwhole
  exact ⟨Bundle.story_misleadingFolder, hoperations, hcalls, hturns, hturn, hwhole⟩

/-- `global = []`, which a host can hand over although no statement says it. -/
def clearGlobal : Operation :=
  ⟨⟨["global"]⟩, .set, .list []⟩

/-- The turn is zero again once all of `global` is replaced. -/
theorem turn_clearGlobal :
    let s := (build Bundle.misleadingStory ⟨fun _ => 0, 0⟩).session
    let calls : List Call := [.next, .apply [clearGlobal]]
    (Bundle.story Bundle.misleadingFolder.files "story" .standard).run =
        .ok Bundle.misleadingStory ∧
      (∀ o ∈ Bundle.misleadingStory.operations ++ [clearGlobal],
        o.target.segments ≠ ["global", turnKey]) ∧
      s.turnsBegun calls = 1 ∧ Decimal.whole? (s.run calls).turn = some 0 :=
  ⟨Bundle.story_misleadingFolder, by decide +kernel, by decide +kernel, by decide +kernel⟩

end Session

end Narrative
