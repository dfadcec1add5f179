import Mathlib.Tactic.Common
import Mathlib.Data.List.Forall2
import Narrative.Bundle
import Narrative.Proofs.Source.Written
import Narrative.Proofs.Yaml.Proper

/-!
# What compiled stories are made of

Every operation and every condition of a story that is bundled from a folder is written in one of
its files.  On the way from the headers of the files to the story the names of a record are kept
apart, and only finite numbers are let through.
-/

namespace Narrative

open Json

/-! ### Records -/

namespace Record

theorem proper_of_lookup {record : Entries} {key : String} {document : Json}
    (each : ∀ entry ∈ record, Proper entry.2) (h : record.lookup key = some document) :
    document.Proper :=
  each _ (Entries.mem_of_lookup h)

theorem eq_of_checkKind {document made : Json} {key : String} {expected : Kind}
    (h : checkKind document key expected = .ok made) : made = document := by
  rw [checkKind] at h
  split at h
  · exact (Except.ok.inj h).symm
  · exact absurd h nofun

theorem proper_require {record : Entries} {key what : String} {expected : Kind} {document : Json}
    (each : ∀ entry ∈ record, Proper entry.2)
    (h : require record key expected what = .ok document) : document.Proper := by
  rw [require] at h
  split at h
  · exact absurd h nofun
  · rename_i hlookup
    exact eq_of_checkKind h ▸ proper_of_lookup each hlookup

theorem proper_optional {record : Entries} {key : String} {expected : Kind} {document : Json}
    (each : ∀ entry ∈ record, Proper entry.2)
    (h : optional record key expected = .ok (some document)) : document.Proper := by
  rw [optional] at h
  split at h
  · exact absurd h nofun
  · exact absurd h nofun
  · rename_i hlookup
    obtain ⟨made, hmade, heq⟩ := Except.exists_of_map h
    obtain rfl := Option.some.inj heq
    exact eq_of_checkKind hmade ▸ proper_of_lookup each hlookup

theorem proper_entries {document : Json} {key : String} {record : Entries} (hp : document.Proper)
    (h : entries document key = .ok record) : Proper (.obj record) := by
  unfold entries at h
  split at h
  · exact Except.ok.inj h ▸ hp
  · exact absurd h nofun

theorem proper_nil : Proper (.obj []) :=
  .obj List.nodup_nil fun _ hentry => absurd hentry List.not_mem_nil

theorem proper_entriesOrNull {document : Json} {key : String} {record : Entries}
    (hp : document.Proper) (h : entriesOrNull document key = .ok record) :
    Proper (.obj record) := by
  unfold entriesOrNull at h
  split at h
  · exact Except.ok.inj h ▸ proper_nil
  · exact proper_entries hp h

theorem proper_optionalEntries {record inner : Entries} {key : String}
    (each : ∀ entry ∈ record, Proper entry.2) (h : optionalEntries record key = .ok inner) :
    Proper (.obj inner) := by
  unfold optionalEntries at h
  split at h
  · exact absurd h nofun
  · rename_i hfield
    exact Except.ok.inj h ▸ proper_optional each hfield
  · exact Except.ok.inj h ▸ proper_nil

/-- Going through a record keeps its names. -/
theorem names_eachEntry {α : Type} {f : String → Json → Except RecordError α} {record : Entries}
    {made : List (String × α)} (h : eachEntry f record = .ok made) :
    Entries.names made = Entries.names record := by
  induction record generalizing made with
  | nil => exact Except.ok.inj h ▸ rfl
  | cons entry rest ih =>
    rw [eachEntry] at h
    split at h
    · exact absurd h nofun
    · obtain ⟨others, hothers, rfl⟩ := Except.exists_of_map h
      exact congrArg (entry.1 :: ·) (ih hothers)

/-- What a record is made into comes from the values under the same names. -/
theorem exists_of_mem_eachEntry {α : Type} {f : String → Json → Except RecordError α}
    {record : Entries} {made : List (String × α)} (h : eachEntry f record = .ok made)
    {entry : String × α} (hentry : entry ∈ made) :
    ∃ value, (entry.1, value) ∈ record ∧ f entry.1 value = .ok entry.2 := by
  induction record generalizing made with
  | nil => exact absurd (Except.ok.inj h ▸ hentry) List.not_mem_nil
  | cons first rest ih =>
    obtain ⟨name, value⟩ := first
    rw [eachEntry] at h
    split at h
    · exact absurd h nofun
    rename_i hfirst
    obtain ⟨others, hothers, rfl⟩ := Except.exists_of_map h
    rcases List.mem_cons.1 hentry with rfl | hentry
    · exact ⟨value, List.mem_cons_self, hfirst⟩
    · obtain ⟨value, hmem, hvalue⟩ := ih hothers hentry
      exact ⟨value, List.mem_cons_of_mem _ hmem, hvalue⟩

end Record

/-! ### Events -/

/-- A trigger with a written condition and a finite weight. -/
structure Trigger.Written (t : Trigger) : Prop where
  condition : t.condition.Written
  weight : t.weight.isFinite = true

/-- An action that runs and checks only what is written. -/
structure Action.Written (a : Action) : Prop where
  operations : ∀ o ∈ a.operations, o.Written
  condition : ∀ c, a.condition = some c → c.Written

/-- An event that runs and checks only what is written, and names each of its actions once. -/
structure Event.Written (e : Event) : Prop where
  onDisplay : ∀ o ∈ e.onDisplay, o.Written
  triggers : ∀ gate t, e.triggers.get gate = some t → t.Written
  actions : ∀ entry ∈ e.actions, entry.2.Written
  once : (Entries.names e.actions).Nodup

/-- A trigger with a condition that is written in a storyline and a finite weight. -/
structure Trigger.WrittenIn (storyline : String) (t : Trigger) : Prop where
  condition : t.condition.WrittenIn storyline
  weight : t.weight.isFinite = true

/-- An action that runs and checks only what is written in a storyline. -/
structure Action.WrittenIn (storyline : String) (a : Action) : Prop where
  operations : ∀ o ∈ a.operations, o.WrittenIn storyline
  condition : ∀ c, a.condition = some c → c.WrittenIn storyline

/-- An event that runs and checks only what is written in its storyline, and names each of its
actions once. -/
structure Event.WrittenIn (storyline : String) (e : Event) : Prop where
  onDisplay : ∀ o ∈ e.onDisplay, o.WrittenIn storyline
  triggers : ∀ gate t, e.triggers.get gate = some t → t.WrittenIn storyline
  actions : ∀ entry ∈ e.actions, entry.2.WrittenIn storyline
  once : (Entries.names e.actions).Nodup

theorem Trigger.WrittenIn.written {storyline : String} {t : Trigger} (h : t.WrittenIn storyline) :
    t.Written :=
  ⟨h.condition.written, h.weight⟩

theorem Action.WrittenIn.written {storyline : String} {a : Action} (h : a.WrittenIn storyline) :
    a.Written :=
  ⟨fun o ho => (h.operations o ho).written, fun c hc => (h.condition c hc).written⟩

theorem Event.WrittenIn.written {storyline : String} {e : Event} (h : e.WrittenIn storyline) :
    e.Written :=
  ⟨fun o ho => (h.onDisplay o ho).written, fun gate t ht => (h.triggers gate t ht).written,
    fun entry hentry => (h.actions entry hentry).written, h.once⟩

theorem Triggers.get_set (t : Triggers) (trigger : Trigger) (gate other : Gate) :
    (t.set trigger gate).get other = if other = gate then some trigger else t.get other := by
  cases gate <;> cases other <;> rfl

namespace EventRecord

/-- A weight is the float of a number, or one. -/
theorem isFinite_weight {place : String} {gate : Gate} {document : Json} {record : TriggerRecord}
    (hp : document.Proper) (h : readTrigger place gate document = .ok record) :
    record.weight.isFinite = true := by
  unfold readTrigger at h
  split at h
  · split at h
    · exact absurd h nofun
    · exact absurd h nofun
    · obtain ⟨weight, hweight, h⟩ := Except.exists_of_bind h
      obtain rfl := Except.ok.inj h
      have hone : (1.0 : Float).isFinite = true := by decide +kernel
      cases weight with
      | none => exact hone
      | some found =>
        have hfound := Record.proper_optional hp.values hweight
        cases hfound with
        | int hrange => exact Decimal.isFinite_ofInt hrange
        | float hfinite => exact hfinite
        | _ => exact hone
  · exact absurd h nofun

theorem isFinite_weights {place : String} {record : Record.Entries}
    {triggers : List (Gate × TriggerRecord)} (each : ∀ entry ∈ record, Proper entry.2)
    (h : readTriggers place record = .ok triggers) :
    ∀ trigger ∈ triggers, trigger.2.weight.isFinite = true := by
  induction record generalizing triggers with
  | nil => exact Except.ok.inj h ▸ fun _ htrigger => absurd htrigger List.not_mem_nil
  | cons entry rest ih =>
    obtain ⟨key, document⟩ := entry
    rw [readTriggers] at h
    split at h
    · exact absurd h nofun
    split at h
    · exact absurd h nofun
    rename_i htrigger
    obtain ⟨others, hothers, rfl⟩ := Except.exists_of_map h
    exact List.forall_mem_cons.2 ⟨isFinite_weight (each _ List.mem_cons_self) htrigger,
      ih (fun other hother => each other (List.mem_cons_of_mem _ hother)) hothers⟩

theorem slugs_of_checkSlugs {storyline event : String} {u : Unit}
    (h : checkSlugs storyline event = .ok u) : isSlug storyline = true ∧ isSlug event = true := by
  unfold checkSlugs at h
  replace h := Except.of_guard h
  have hstoryline := Except.not_of_guard h
  replace h := Except.of_guard (Except.of_guard h)
  dsimp only at h
  split at h
  · exact absurd h nofun
  · rename_i hevent
    simpa using And.intro hstoryline hevent

/-- The record of an event has the names of its file, which are slugs; it has finite weights and does
not repeat the name of an action. -/
theorem of_read {header : Json} {storyline event description : String} {r : EventRecord}
    (hp : header.Proper) (h : read header storyline event description = .ok r) :
    (r.storyline = storyline ∧ r.event = event) ∧ (isSlug storyline = true ∧ isSlug event = true) ∧
      (∀ trigger ∈ r.triggers, trigger.2.weight.isFinite = true) ∧
      (Entries.names r.actions).Nodup := by
  obtain ⟨_, hslugs, h⟩ := Except.exists_of_bind h
  obtain ⟨record, hrecord, h⟩ := Except.exists_of_bind (Except.of_guard h)
  obtain ⟨repeatable, -, h⟩ := Except.exists_of_bind h
  obtain ⟨onDisplay, -, h⟩ := Except.exists_of_bind h
  obtain ⟨triggerEntries, htriggerEntries, h⟩ := Except.exists_of_bind h
  obtain ⟨triggers, htriggers, h⟩ := Except.exists_of_bind h
  obtain ⟨actionEntries, hactionEntries, h⟩ := Except.exists_of_bind h
  obtain ⟨actions, hactions, h⟩ := Except.exists_of_bind h
  obtain rfl := Except.ok.inj h
  have heach := (Record.proper_entriesOrNull hp hrecord).values
  have hvalues := (Record.proper_optionalEntries heach htriggerEntries).values
  refine ⟨⟨rfl, rfl⟩, slugs_of_checkSlugs hslugs, isFinite_weights hvalues htriggers, ?_⟩
  show (Entries.names actions).Nodup
  rw [Record.names_eachEntry hactions]
  exact (Record.proper_optionalEntries heach hactionEntries).names

end EventRecord

namespace Event

/-- The triggers that are added to written ones are written. -/
theorem writtenIn_assembleTriggers {storyline : String} {made triggers : Triggers}
    {records : List (Gate × TriggerRecord)}
    (hmade : ∀ gate trigger, made.get gate = some trigger → trigger.WrittenIn storyline)
    (hweights : ∀ record ∈ records, record.2.weight.isFinite = true)
    (h : assembleTriggers storyline made records = .ok triggers) :
    ∀ gate trigger, triggers.get gate = some trigger → trigger.WrittenIn storyline := by
  induction records generalizing made with
  | nil => exact Except.ok.inj h ▸ hmade
  | cons record rest ih =>
    rw [assembleTriggers] at h
    split at h
    · exact absurd h nofun
    rename_i hcondition
    refine ih (fun gate trigger hget => ?_)
      (fun other hother => hweights other (List.mem_cons_of_mem _ hother)) h
    rw [Triggers.get_set] at hget
    split at hget
    · obtain rfl := Option.some.inj hget
      exact ⟨⟨_, hcondition⟩, hweights record List.mem_cons_self⟩
    · exact hmade gate trigger hget

theorem writtenIn_assembleAction {storyline : String} {record : ActionRecord} {a : Action}
    (h : assembleAction storyline record = .ok a) : a.WrittenIn storyline := by
  obtain ⟨operations, hoperations, h⟩ := Except.exists_of_bind h
  split at h
  · obtain rfl := Except.ok.inj h
    exact ⟨Operation.writtenIn_of_readAll hoperations, nofun⟩
  · obtain ⟨condition, hcondition, h⟩ := Except.exists_of_bind h
    obtain rfl := Except.ok.inj h
    exact ⟨Operation.writtenIn_of_readAll hoperations,
      fun c hc => Option.some.inj hc ▸ ⟨_, hcondition⟩⟩

theorem writtenIn_assembleActions {storyline : String} {records : List (String × ActionRecord)}
    {actions : List (String × Action)} (h : assembleActions storyline records = .ok actions) :
    Entries.names actions = Entries.names records ∧
      ∀ entry ∈ actions, entry.2.WrittenIn storyline := by
  induction records generalizing actions with
  | nil => exact Except.ok.inj h ▸ ⟨rfl, fun _ hentry => absurd hentry List.not_mem_nil⟩
  | cons record rest ih =>
    rw [assembleActions] at h
    split at h
    · exact absurd h nofun
    rename_i haction
    obtain ⟨others, hothers, rfl⟩ := Except.exists_of_map h
    obtain ⟨hnames, heach⟩ := ih hothers
    exact ⟨congrArg (record.1 :: ·) hnames,
      List.forall_mem_cons.2 ⟨writtenIn_assembleAction haction, heach⟩⟩

/-- An event that is assembled keeps its names, and runs and checks only what its file writes. -/
theorem of_assemble {r : EventRecord} {e : Event}
    (hweights : ∀ trigger ∈ r.triggers, trigger.2.weight.isFinite = true)
    (honce : (Entries.names r.actions).Nodup) (h : assemble r = .ok e) :
    e.storyline = r.storyline ∧ e.event = r.event ∧ e.WrittenIn r.storyline := by
  obtain ⟨triggers, htriggers, hparts⟩ := Except.exists_of_bind (Except.of_mapError h)
  obtain ⟨actions, hactions, hparts⟩ := Except.exists_of_bind hparts
  obtain ⟨onDisplay, hdisplay, hparts⟩ := Except.exists_of_bind hparts
  obtain rfl := Except.ok.inj hparts
  obtain ⟨hnames, heach⟩ := writtenIn_assembleActions hactions
  have hnone : ∀ gate trigger, Triggers.none.get gate = some trigger →
      trigger.WrittenIn r.storyline := by
    intro gate trigger hget
    cases gate <;> exact absurd hget nofun
  exact ⟨rfl, rfl, Operation.writtenIn_of_readAll hdisplay,
    writtenIn_assembleTriggers hnone hweights htriggers, heach, by rwa [hnames]⟩

end Event

/-! ### Configurations -/

/-- A configuration that has a supported version, names each resource once, and has proper defaults.
-/
structure Config.Written (config : Config) : Prop where
  version : config.version ∈ supportedVersions
  once : (Entries.names config.resources).Nodup
  defaults : ∀ entry ∈ config.resources, entry.2.default.Proper

namespace Config

/-- A resource has a slug for its name and a format with a place for its value, and its default is
written in its definition. -/
theorem of_readResource {slug : String} {definition : Json} {r : Resource}
    (h : readResource slug definition = .ok r) :
    (isSlug slug = true ∧ ['%', 's'] <:+: r.format.toList) ∧
      ∃ record, Record.entriesOrNull definition slug = .ok record ∧
        record.lookup "default" = some r.default := by
  unfold readResource at h
  have hslug := Except.not_of_guard h
  obtain ⟨record, hrecord, h⟩ := Except.exists_of_bind (Except.of_guard h)
  obtain ⟨description, -, h⟩ := Except.exists_of_bind h
  obtain ⟨format, -, h⟩ := Except.exists_of_bind h
  have hformat := Except.not_of_guard h
  obtain ⟨displayName, -, h⟩ := Except.exists_of_bind (Except.of_guard h)
  split at h
  · exact absurd h nofun
  · rename_i hlookup
    obtain rfl := Except.ok.inj h
    have hchecked : isSlug slug = true ∧ ['%', 's'] <:+: format.toList :=
      ⟨by simpa using hslug, Text.infix_of_occurs (by simpa using hformat)⟩
    exact ⟨hchecked, record, hrecord, hlookup⟩

theorem proper_default {slug : String} {definition : Json} {r : Resource} (hp : definition.Proper)
    (h : readResource slug definition = .ok r) : r.default.Proper := by
  obtain ⟨-, record, hrecord, hlookup⟩ := of_readResource h
  exact Record.proper_of_lookup (Record.proper_entriesOrNull hp hrecord).values hlookup

theorem version_of_readVersion {record : Record.Entries} {n : Nat}
    (h : readVersion record = .ok n) : n ∈ supportedVersions := by
  unfold readVersion at h
  split at h
  · exact absurd h nofun
  split at h
  · split at h
    · rename_i hversion
      obtain rfl := Except.ok.inj h
      exact List.contains_iff_mem.1 hversion.2
    · exact absurd h nofun
  · exact absurd h nofun

/-- The resources of a configuration are read from the entries of one field of its header. -/
theorem exists_of_read {header : Json} {body : String} {config : Config}
    (h : read header body = .ok config) :
    ∃ record found definitions, Record.entriesOrNull header "config" = .ok record ∧
      readVersion record = .ok config.version ∧
      Record.require record "resources" .object "resources definition" = .ok found ∧
      Record.entries found "resources" = .ok definitions ∧
      Record.eachEntry readResource definitions = .ok config.resources := by
  obtain ⟨record, hrecord, h⟩ := Except.exists_of_bind h
  obtain ⟨version, hversion, h⟩ := Except.exists_of_bind h
  obtain ⟨title, -, h⟩ := Except.exists_of_bind h
  obtain ⟨description, h⟩ := Except.exists_of_choice h
  obtain ⟨found, hfound, h⟩ := Except.exists_of_bind h
  obtain ⟨definitions, hdefinitions, h⟩ := Except.exists_of_bind h
  obtain ⟨resources, hresources, h⟩ := Except.exists_of_bind h
  obtain rfl := Except.ok.inj h
  exact ⟨record, found, definitions, hrecord, hversion, hfound, hdefinitions, hresources⟩

theorem written_of_read {header : Json} {body : String} {config : Config} (hp : header.Proper)
    (h : read header body = .ok config) : config.Written := by
  obtain ⟨record, found, definitions, hrecord, hversion, hfound, hdefinitions, hresources⟩ :=
    exists_of_read h
  have heach := (Record.proper_entriesOrNull hp hrecord).values
  have hproper := Record.proper_entries (Record.proper_require heach hfound) hdefinitions
  refine ⟨version_of_readVersion hversion, ?_, fun entry hentry => ?_⟩
  · rw [Record.names_eachEntry hresources]
    exact hproper.names
  · obtain ⟨value, hmem, hvalue⟩ := Record.exists_of_mem_eachEntry hresources hentry
    exact proper_default (hproper.values _ hmem) hvalue

/-- Every resource of a configuration is checked. -/
theorem resources_of_read {header : Json} {body : String} {config : Config}
    (h : read header body = .ok config) : ∀ entry ∈ config.resources,
      isSlug entry.1 = true ∧ ['%', 's'] <:+: entry.2.format.toList := by
  obtain ⟨record, found, definitions, -, -, -, -, hresources⟩ := exists_of_read h
  intro entry hentry
  obtain ⟨definition, -, hdefinition⟩ := Record.exists_of_mem_eachEntry hresources hentry
  exact (of_readResource hdefinition).1

end Config

/-! ### Stories -/

namespace Bundle

theorem exists_of_run_bind {ε α β : Type} {x : ExceptT ε Id α} {f : α → ExceptT ε Id β} {b : β}
    (h : (x >>= f).run = .ok b) : ∃ a, x.run = .ok a ∧ (f a).run = .ok b := by
  rw [ExceptT.run_bind] at h
  cases hx : x.run with
  | error e => exact absurd (hx ▸ h) nofun
  | ok a => exact ⟨a, rfl, by rwa [hx] at h⟩

/-- The results of a list of runs, item by item. -/
theorem forall₂_of_run_mapM {ε α β : Type} {f : α → ExceptT ε Id β} {l : List α} {made : List β}
    (h : (l.mapM f).run = .ok made) : List.Forall₂ (fun a b => (f a).run = .ok b) l made := by
  induction l generalizing made with
  | nil => exact Except.ok.inj h ▸ .nil
  | cons a l ih =>
    rw [List.mapM_cons] at h
    obtain ⟨b, hb, h⟩ := exists_of_run_bind h
    obtain ⟨bs, hbs, h⟩ := exists_of_run_bind h
    obtain rfl := Except.ok.inj h
    exact .cons hb (ih hbs)

theorem exists_of_forall₂ {α β : Type} {R : α → β → Prop} {l : List α} {made : List β}
    (h : List.Forall₂ R l made) {a : α} (ha : a ∈ l) : ∃ b ∈ made, R a b := by
  induction h with
  | nil => exact absurd ha List.not_mem_nil
  | cons hfirst _ ih =>
    rcases List.mem_cons.1 ha with rfl | ha
    · exact ⟨_, List.mem_cons_self, hfirst⟩
    · obtain ⟨b, hb, hab⟩ := ih ha
      exact ⟨b, List.mem_cons_of_mem _ hb, hab⟩

variable {files : Files Id} {root folder storyline name : String}

theorem proper_document {path : String} {d : FrontMatter}
    (h : (document files path).run = .ok d) : d.header.Proper := by
  obtain ⟨text, -, h⟩ := exists_of_run_bind h
  split at h
  · exact absurd h nofun
  split at h
  · exact absurd h nofun
  · rename_i hread
    exact Except.ok.inj h ▸ FrontMatter.proper_header hread

/-- What a file is compiled into: an event with the names of the file, which are slugs. -/
structure Compiled (storyline name : String) (e : Event) : Prop where
  eq_storyline : e.storyline = storyline
  eq_name : e.event = name
  slug_storyline : isSlug storyline = true
  slug_name : isSlug name = true
  written : e.WrittenIn storyline

theorem compiled_event {e : Event} (h : (event files root folder storyline name).run = .ok e) :
    Compiled storyline name e := by
  obtain ⟨d, hd, h⟩ := exists_of_run_bind h
  split at h
  · exact absurd h nofun
  rename_i hrecord
  split at h
  · exact absurd h nofun
  rename_i hassemble
  obtain rfl := Except.ok.inj h
  obtain ⟨⟨rfl, rfl⟩, ⟨hstoryline, hname⟩, hweights, honce⟩ :=
    EventRecord.of_read (proper_document hd) hrecord
  obtain ⟨hin, hevent, hwritten⟩ := Event.of_assemble hweights honce hassemble
  exact ⟨hin, hevent, hstoryline, hname, hwritten⟩

/-- The events of a storyline are those of its files, in order. -/
theorem exists_of_events {made : List Event}
    (h : (events files root folder storyline).run = .ok made) :
    ∃ names, (eventNames files root folder storyline).run = .ok names ∧
      List.Forall₂ (fun name e => (event files root folder storyline name).run = .ok e) names
        made := by
  obtain ⟨names, hnames, h⟩ := exists_of_run_bind h
  exact ⟨names, hnames, forall₂_of_run_mapM h⟩

/-- A bundled story is that of a configuration and of the events of its storylines. -/
theorem exists_of_story {layout : Layout} {s : Story}
    (h : (story files root layout).run = .ok s) :
    ∃ d config names made, (document files (Path.join root layout.configFile)).run = .ok d ∧
      Config.read d.header d.body = .ok config ∧
      (storylines files root layout.storylinesFolder).run = .ok names ∧
      List.Forall₂ (fun name l => (events files root layout.storylinesFolder name).run = .ok l)
        names made ∧
      s = config.story names (Event.sort made.flatten) := by
  obtain ⟨d, hd, h⟩ := exists_of_run_bind h
  split at h
  · exact absurd h nofun
  rename_i config hconfig
  obtain ⟨names, hnames, h⟩ := exists_of_run_bind h
  obtain ⟨made, hmade, h⟩ := exists_of_run_bind h
  obtain rfl := Except.ok.inj h
  exact ⟨d, config, names, made, hd, hconfig, hnames, forall₂_of_run_mapM hmade, rfl⟩

/-- The configuration of a bundled story is written, and so are its events. -/
theorem written_of_story {layout : Layout} {s : Story}
    (h : (story files root layout).run = .ok s) :
    ∃ config storylines events, s = Config.story config storylines events ∧ config.Written ∧
      ∀ e ∈ events, e.WrittenIn e.storyline := by
  obtain ⟨d, config, names, made, hd, hconfig, -, hmade, rfl⟩ := exists_of_story h
  refine ⟨config, names, _, rfl, Config.written_of_read (proper_document hd) hconfig, ?_⟩
  intro e he
  obtain ⟨l, hl, he⟩ := List.mem_flatten.1 (List.mem_mergeSort.1 he)
  obtain ⟨storyline, -, hevents⟩ := exists_of_forall₂ hmade.flip hl
  obtain ⟨stems, -, heach⟩ := exists_of_events hevents
  obtain ⟨name, -, hevent⟩ := exists_of_forall₂ heach.flip he
  have hcompiled := compiled_event hevent
  rw [hcompiled.eq_storyline]
  exact hcompiled.written

end Bundle

end Narrative
