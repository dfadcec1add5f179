import Mathlib.Tactic.Common
import Narrative.Story.Coding
import Narrative.Proofs.Bundle.Written
import Narrative.Proofs.Source.Proper

/-!
# What compiled stories are written as

The record of a story that is bundled from a folder is proper, since all its operands are written in
the source.
-/

namespace Narrative

open Json

/-! ### Events -/

theorem Trigger.Written.proper {t : Trigger} (h : t.Written) : t.toJson.Proper := by
  refine .obj (by simp [Entries.names]) ?_
  simp only [List.forall_mem_cons, List.not_mem_nil, false_imp_iff, implies_true, and_true]
  exact ⟨h.condition.proper, .float h.weight⟩

theorem Triggers.proper {t : Triggers}
    (h : ∀ gate trigger, t.get gate = some trigger → trigger.toJson.Proper) : t.toJson.Proper := by
  obtain ⟨hard, soft⟩ := t
  refine .obj ?_ ?_
  · cases hard <;> cases soft <;> simp [Entries.names]
  · intro entry hentry
    simp only [List.mem_append, List.mem_map, Option.mem_toList] at hentry
    rcases hentry with ⟨trigger, htrigger, rfl⟩ | ⟨trigger, htrigger, rfl⟩
    · exact h .hard trigger htrigger
    · exact h .soft trigger htrigger

theorem Action.Written.proper {a : Action} (h : a.Written) : a.toJson.Proper := by
  obtain ⟨operations, condition⟩ := a
  have harray : (operationsToJson operations).Proper :=
    .arr (List.forall_mem_map.2 fun o ho => (h.operations o ho).proper)
  refine .obj ?_ ?_
  · cases condition <;> simp [Entries.names]
  · intro entry hentry
    simp only [List.mem_cons, List.mem_map, Option.mem_toList] at hentry
    rcases hentry with rfl | ⟨c, hc, rfl⟩
    · exact harray
    · exact (h.condition c hc).proper

theorem Event.Written.proper {e : Event} (h : e.Written) : e.toJson.Proper := by
  have hdisplay : (operationsToJson e.onDisplay).Proper :=
    .arr (List.forall_mem_map.2 fun o ho => (h.onDisplay o ho).proper)
  have htriggers : e.triggers.toJson.Proper :=
    Triggers.proper fun gate t ht => (h.triggers gate t ht).proper
  have hactions : Proper (.obj (Entries.mapValues Action.toJson e.actions)) :=
    .obj (by rw [Entries.names_mapValues]; exact h.once)
      (List.forall_mem_map.2 fun entry hentry => (h.actions entry hentry).proper)
  refine .obj (by simp [Entries.names]) ?_
  simp only [List.forall_mem_cons, List.not_mem_nil, false_imp_iff, implies_true, and_true]
  exact ⟨.str _, .str _, .str _, .bool _, hdisplay, htriggers, hactions⟩

/-! ### Stories -/

theorem Resource.proper {r : Resource} (h : r.default.Proper) : r.toJson.Proper := by
  refine .obj (by simp [Entries.names]) ?_
  simp only [List.forall_mem_cons, List.not_mem_nil, false_imp_iff, implies_true, and_true]
  exact ⟨.str _, .str _, .str _, h⟩

/-- The state in which a story starts is proper when the defaults of its resources are. -/
theorem State.proper_initial {resources : List (String × Resource)} {storylines : List String}
    (honce : (Entries.names resources).Nodup)
    (hdefaults : ∀ entry ∈ resources, entry.2.default.Proper) :
    (State.initial resources storylines).root.Proper := by
  have hglobal : Proper (.obj [("current_turn", .nat 0)]) := by
    refine .obj (by simp [Entries.names]) ?_
    simp only [List.forall_mem_cons, List.not_mem_nil, false_imp_iff, implies_true, and_true]
    exact .int (by decide)
  have hresources : Proper (.obj (Entries.mapValues Resource.default resources)) :=
    .obj (by rwa [Entries.names, Entries.mapValues, List.map_map]) (List.forall_mem_map.2 hdefaults)
  have hstorylines : Proper
      (.obj (Entries.distinct (storylines.map fun slug => (slug, Json.obj [])))) := by
    refine .obj (Entries.nodup_names_distinct _) fun entry hentry => ?_
    obtain ⟨slug, -, rfl⟩ := List.mem_map.1 (Entries.mem_of_mem_distinct hentry)
    exact Record.proper_nil
  refine .obj (by simp [State.initial, Entries.names]) ?_
  simp only [State.initial, List.forall_mem_cons, List.not_mem_nil, false_imp_iff, implies_true,
    and_true]
  exact ⟨hglobal, hresources, hstorylines⟩

theorem Config.Written.proper_story {config : Config} (h : config.Written)
    {storylines : List String} {events : List Event} (hevents : ∀ e ∈ events, e.Written) :
    (config.story storylines events).toJson.Proper := by
  have hresources : Proper (.obj (Entries.mapValues Resource.toJson config.resources)) :=
    .obj (by rw [Entries.names_mapValues]; exact h.once)
      (List.forall_mem_map.2 fun entry hentry => Resource.proper (h.defaults entry hentry))
  have hrange : IntegerRange config.version := by
    have hone : config.version = 1 := by simpa [supportedVersions] using h.version
    rw [hone]
    decide
  refine .obj (by simp [Entries.names]) ?_
  simp only [List.forall_mem_cons, List.not_mem_nil, false_imp_iff, implies_true, and_true]
  exact ⟨.int hrange, .str _, .str _, hresources,
    .arr (List.forall_mem_map.2 fun e he => (hevents e he).proper),
    State.proper_initial h.once h.defaults⟩

/-- The record of a bundled story is proper, and its version has thirty-two bits. -/
theorem Bundle.proper_story {files : Files Id} {root : String} {layout : Layout} {s : Story}
    (h : (story files root layout).run = .ok s) : s.toJson.Proper ∧ s.version < 2 ^ 32 := by
  obtain ⟨config, storylines, events, rfl, hconfig, hevents⟩ := written_of_story h
  refine ⟨hconfig.proper_story fun e he => (hevents e he).written, ?_⟩
  have hone : config.version = 1 := by simpa [supportedVersions] using hconfig.version
  show config.version < 2 ^ 32
  omega

end Narrative
