import Narrative.Proofs.Condition.Mentions
import Narrative.Proofs.Session.Offer

/-!
# What is available does not depend on the rest of the state

An event is available through a gate, and an action is offered, by its own condition alone.  So an
operation whose target parts from all that the condition mentions does not change whether it is.
-/

namespace Narrative.Session

variable {s t : Session} {o : Operation} {gate : Gate}

/-! ### Sessions that differ in their states -/

theorem opens_congr (hviewed : t.viewed = s.viewed) {e : Event}
    (h : ∀ trigger, e.triggers.get gate = some trigger →
      trigger.condition.holds t.state = trigger.condition.holds s.state) :
    t.Opens gate e ↔ s.Opens gate e := by
  have hfresh : t.isViewed e.slug = s.isViewed e.slug := by rw [isViewed, isViewed, hviewed]
  rw [Opens, Opens, hfresh]
  refine and_congr_right fun _ => exists_congr fun trigger => and_congr_right fun htrigger => ?_
  rw [h trigger htrigger]

theorem offers_congr {action : Action}
    (h : ∀ c, action.condition = some c → c.holds t.state = c.holds s.state) :
    t.Offers action ↔ s.Offers action := by
  refine forall_congr' fun c => imp_congr_right fun hcondition => ?_
  rw [h c hcondition]

/-! ### Operations that miss a condition -/

/-- A condition depends only on what it mentions.  In two states in which each access that it mentions
has the same value, or is missing in both, it gives the same result or the same error.  So behind an
operation whose target parts at an object from all that the conditions of some events or actions
mention, the same ones of these are available or offered; and whenever all are listed without an
error before and behind it, such an event or action is on both lists or on neither. -/
theorem depends_on_mentioned :
    (∀ (c : Condition) (s t : State), (∀ a, c.Mentions a → s.AgreeAt t a) → c.holds s = c.holds t) ∧
    ∀ (s : Session) (o : Operation),
      (∀ gate events, (∀ e ∈ events, ∀ trigger, e.triggers.get gate = some trigger →
          o.Misses s.state trigger.condition) →
        ∀ first, (s.apply [o]).session.availableFrom gate first events =
          s.availableFrom gate first events) ∧
      (∀ gate index e, s.story.events[index]? = some e →
        (∀ trigger, e.triggers.get gate = some trigger → o.Misses s.state trigger.condition) →
          ∀ before after, s.available gate = .ok before →
            (s.apply [o]).session.available gate = .ok after → (index ∈ after ↔ index ∈ before)) ∧
      (∀ actions : List (String × Action),
        (∀ entry ∈ actions, ∀ c, entry.2.condition = some c → o.Misses s.state c) →
          (s.apply [o]).session.offeredOf actions = s.offeredOf actions) ∧
      ∀ e name, s.currentEvent? = some e →
        (∀ action, (name, action) ∈ e.actions → ∀ c, action.condition = some c →
          o.Misses s.state c) →
          ∀ before after, s.offered = .ok before → (s.apply [o]).session.offered = .ok after →
            (name ∈ after ↔ name ∈ before) := by
  refine ⟨fun c s t h => Condition.holds_congr h, fun s o => ?_⟩
  have hunmoved := s.unmoved_apply [o]
  have hmisses : ∀ c, o.Misses s.state c →
      c.holds (s.apply [o]).session.state = c.holds s.state := by
    intro c hc
    rw [session_apply]
    exact hc.holds_applyAll
  refine ⟨?_, ?_, ?_, ?_⟩
  · intro gate events h first
    exact availableFrom_congr hunmoved.viewed first fun e he trigger htrigger =>
      hmisses _ (h e he trigger htrigger)
  · intro gate index e he h before after hbefore hafter
    have hopens : (s.apply [o]).session.Opens gate e ↔ s.Opens gate e :=
      opens_congr hunmoved.viewed fun trigger htrigger => hmisses _ (h trigger htrigger)
    rw [mem_available hafter, mem_available hbefore, hunmoved.story]
    simp only [he, Option.some.injEq, exists_eq_left', hopens]
  · intro actions h
    exact offeredOf_congr fun entry hentry c hc => hmisses c (h entry hentry c hc)
  · intro e name he h before after hbefore hafter
    have hevent : (s.apply [o]).session.currentEvent? = some e := by
      rw [currentEvent?, hunmoved.story, hunmoved.current]
      exact he
    rw [offered, he] at hbefore
    rw [offered, hevent] at hafter
    rw [(of_offeredOf hafter).1 name, (of_offeredOf hbefore).1 name]
    refine exists_congr fun action => and_congr_right fun haction => ?_
    exact offers_congr fun c hc => hmisses c (h action haction c hc)

/-- The tide is high, with the access inside a list. -/
def highTide : Condition :=
  .atom (.list [.access ⟨["global", "tide"]⟩, .null]) .equal (.list [.text "high", .null])

/-- There are sails. -/
def rigged : Condition :=
  .atom (.access ⟨["resources", "sails"]⟩) .greater (.number 0.0)

/-- The wind freshens. -/
def freshWind : Operation :=
  ⟨⟨["global", "wind"]⟩, .set, .number 5.0⟩

/-- A quay at high tide, from which one may sail. -/
def quay : Event :=
  { event := "quay", storyline := "a", description := "Quay", repeatable := true, onDisplay := []
    triggers := Triggers.none.set ⟨highTide, 1.0⟩ .hard
    actions := [("Sail", ⟨[], some rigged⟩)] }

/-- At the quay, with two sails. -/
def atQuay : Session :=
  { story := ⟨1, "", "", [], [quay], []⟩
    state := ⟨[("global", .obj [("tide", .str "high")]), ("resources", .obj [("sails", .nat 2)])]⟩
    viewed := .empty
    current := some 0
    draws := .ofList [] }

theorem freshWind_misses_highTide : freshWind.Misses atQuay.state highTide := by
  rintro a ⟨operand, hoperand, ha⟩
  rcases List.mem_pair.1 hoperand with rfl | rfl
  · obtain rfl : a = ⟨["global", "tide"]⟩ := by
      simpa [Operand.leaves, Operand.leavesOfItems] using ha
    exact ⟨["global"], "tide", [], "wind", [], [("tide", .str "high")], rfl, rfl, by decide, rfl⟩
  · simp [Operand.leaves, Operand.leavesOfItems] at ha

theorem freshWind_misses_rigged : freshWind.Misses atQuay.state rigged := by
  rintro a ⟨operand, hoperand, ha⟩
  rcases List.mem_pair.1 hoperand with rfl | rfl
  · obtain rfl : a = ⟨["resources", "sails"]⟩ := by simpa [Operand.leaves] using ha
    exact ⟨[], "resources", ["sails"], "global", ["wind"], atQuay.state.entries, rfl, rfl,
      by decide, rfl⟩
  · simp [Operand.leaves] at ha

/-- The wind is new to the state, but the quay stays available and `Sail` stays on offer. -/
theorem depends_on_mentioned_atQuay :
    let windy := (atQuay.apply [freshWind]).session
    (freshWind.Misses atQuay.state highTide ∧ freshWind.Misses atQuay.state rigged) ∧
      windy.state ≠ atQuay.state ∧
      (∀ a, highTide.Mentions a → atQuay.state.AgreeAt windy.state a) ∧
      highTide.holds atQuay.state = highTide.holds windy.state ∧
      windy.availableFrom .hard 0 [quay] = .ok [0] ∧
      (∀ after, windy.available .hard = .ok after → 0 ∈ after) ∧
      windy.offeredOf quay.actions = .ok ["Sail"] ∧
      ∀ after, windy.offered = .ok after → "Sail" ∈ after := by
  intro windy
  obtain ⟨hholds, hmissed⟩ := depends_on_mentioned
  obtain ⟨hlisted, hindex, hoffered, hname⟩ := hmissed atQuay freshWind
  have htrigger : ∀ trigger, quay.triggers.get .hard = some trigger →
      freshWind.Misses atQuay.state trigger.condition := by
    rintro trigger ⟨rfl⟩
    exact freshWind_misses_highTide
  have haction : ∀ action, ("Sail", action) ∈ quay.actions → ∀ c, action.condition = some c →
      freshWind.Misses atQuay.state c := by
    intro action hmem c hc
    obtain rfl : action = ⟨[], some rigged⟩ := by simpa [quay] using hmem
    obtain rfl := Option.some.inj hc
    exact freshWind_misses_rigged
  have hagree : ∀ a, highTide.Mentions a → atQuay.state.AgreeAt windy.state a := by
    intro a ha _
    have hwindy : atQuay.state.apply freshWind = .ok windy.state := by decide +kernel
    exact (State.get?_apply_of_parts hwindy (freshWind_misses_highTide a ha)).symm
  have hquay : atQuay.availableFrom .hard 0 [quay] = .ok [0] := by decide +kernel
  have hsail : atQuay.offeredOf quay.actions = .ok ["Sail"] := by decide +kernel
  refine ⟨⟨freshWind_misses_highTide, freshWind_misses_rigged⟩, by decide +kernel, hagree,
    hholds highTide _ _ hagree, ?_, fun after hafter => ?_, ?_, fun after hafter => ?_⟩
  · exact (hlisted .hard [quay] (List.forall_mem_singleton.2 htrigger) 0).trans hquay
  · exact (hindex .hard 0 quay rfl htrigger [0] after hquay hafter).2 List.mem_cons_self
  · refine (hoffered quay.actions ?_).trans hsail
    exact List.forall_mem_singleton.2 (haction ⟨[], some rigged⟩ List.mem_cons_self)
  · exact (hname quay "Sail" rfl haction ["Sail"] after hsail hafter).2 List.mem_cons_self

end Narrative.Session
