import Narrative.Proofs.Bundle.Proper
import Narrative.Proofs.Source.WellFormed

/-!
# What compiled stories run and check

Every operation that a compiled story runs and every condition that it checks is read from the
source of the story, and the story starts in a well-formed state.
-/

namespace Narrative

open Json

/-! ### Operations and conditions of a story -/

/-- The conditions of the triggers. -/
def Triggers.conditions (t : Triggers) : List Condition :=
  (t.hard.toList ++ t.soft.toList).map Trigger.condition

namespace Event

/-- The operations that an event runs, when it is shown or with one of its actions. -/
def operations (e : Event) : List Operation :=
  e.onDisplay ++ e.actions.flatMap fun entry => entry.2.operations

/-- The conditions that an event checks. -/
def conditions (e : Event) : List Condition :=
  e.triggers.conditions ++ e.actions.flatMap fun entry => entry.2.condition.toList

end Event

namespace Story

/-- The operations that the events of a story run. -/
def operations (s : Story) : List Operation :=
  s.events.flatMap Event.operations

/-- The conditions that the events of a story check. -/
def conditions (s : Story) : List Condition :=
  s.events.flatMap Event.conditions

variable {s : Story} {e : Event}

theorem mem_operations_of_display (he : e ∈ s.events) {o : Operation} (ho : o ∈ e.onDisplay) :
    o ∈ s.operations :=
  List.mem_flatMap.2 ⟨e, he, List.mem_append_left _ ho⟩

theorem mem_operations_of_action (he : e ∈ s.events) {name : String} {a : Action}
    (ha : (name, a) ∈ e.actions) {o : Operation} (ho : o ∈ a.operations) : o ∈ s.operations :=
  List.mem_flatMap.2 ⟨e, he, List.mem_append_right _ (List.mem_flatMap.2 ⟨_, ha, ho⟩)⟩

theorem mem_conditions_of_trigger (he : e ∈ s.events) {gate : Gate} {t : Trigger}
    (ht : e.triggers.get gate = some t) : t.condition ∈ s.conditions := by
  have htriggers : t ∈ e.triggers.hard.toList ++ e.triggers.soft.toList := by
    cases gate with
    | hard => exact List.mem_append_left _ (Option.mem_toList.2 ht)
    | soft => exact List.mem_append_right _ (Option.mem_toList.2 ht)
  exact List.mem_flatMap.2
    ⟨e, he, List.mem_append_left _ (List.mem_map.2 ⟨t, htriggers, rfl⟩)⟩

theorem mem_conditions_of_action (he : e ∈ s.events) {name : String} {a : Action}
    (ha : (name, a) ∈ e.actions) {c : Condition} (hc : a.condition = some c) : c ∈ s.conditions :=
  List.mem_flatMap.2 ⟨e, he,
    List.mem_append_right _ (List.mem_flatMap.2 ⟨_, ha, Option.mem_toList.2 hc⟩)⟩

end Story

/-! ### What compiled stories run and check -/

namespace Event.WrittenIn

variable {storyline : String} {e : Event}

theorem operations (h : e.WrittenIn storyline) : ∀ o ∈ e.operations, o.WrittenIn storyline := by
  intro o ho
  rcases List.mem_append.1 ho with ho | ho
  · exact h.onDisplay o ho
  · obtain ⟨entry, hentry, ho⟩ := List.mem_flatMap.1 ho
    exact (h.actions entry hentry).operations o ho

theorem conditions (h : e.WrittenIn storyline) : ∀ c ∈ e.conditions, c.WrittenIn storyline := by
  intro c hc
  rcases List.mem_append.1 hc with hc | hc
  · obtain ⟨t, ht, rfl⟩ := List.mem_map.1 hc
    rcases List.mem_append.1 ht with ht | ht
    · exact (h.triggers .hard t (Option.mem_toList.1 ht)).condition
    · exact (h.triggers .soft t (Option.mem_toList.1 ht)).condition
  · obtain ⟨entry, hentry, hc⟩ := List.mem_flatMap.1 hc
    exact (h.actions entry hentry).condition c (Option.mem_toList.1 hc)

end Event.WrittenIn

/-- A story that runs and checks only what is written, from a well-formed state on. -/
structure Story.WellFormed (s : Story) : Prop where
  operations : ∀ o ∈ s.operations, o.Written
  conditions : ∀ c ∈ s.conditions, c.Written
  state : (State.mk s.defaultState).WellFormed

/-- The state in which a story starts is well formed when the defaults of its resources are proper.
-/
theorem State.wellFormed_initial {resources : List (String × Resource)} {storylines : List String}
    (honce : (Entries.names resources).Nodup)
    (hdefaults : ∀ entry ∈ resources, entry.2.default.Proper) :
    (State.initial resources storylines).WellFormed := by
  refine ⟨rfl, fun entry hentry => ?_, State.proper_initial honce hdefaults⟩
  simp only [State.initial, List.mem_cons, List.not_mem_nil, or_false] at hentry
  rcases hentry with rfl | rfl | rfl <;> rfl

/-- A bundled story is well formed. -/
theorem Bundle.wellFormed_story {files : Files Id} {root : String} {layout : Layout} {s : Story}
    (h : (story files root layout).run = .ok s) : s.WellFormed := by
  obtain ⟨config, storylines, events, rfl, hconfig, hevents⟩ := written_of_story h
  refine ⟨fun o ho => ?_, fun c hc => ?_,
    State.wellFormed_initial hconfig.once hconfig.defaults⟩
  · obtain ⟨e, he, ho⟩ := List.mem_flatMap.1 ho
    exact ((hevents e he).operations o ho).written
  · obtain ⟨e, he, hc⟩ := List.mem_flatMap.1 hc
    exact ((hevents e he).conditions c hc).written

end Narrative
