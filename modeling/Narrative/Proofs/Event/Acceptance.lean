import Mathlib.Tactic.Common
import Narrative.Proofs.Event.Parts
import Narrative.Proofs.Text.Trimming

/-!
# Headers that are accepted

The two passes over the header of an event together accept exactly the headers of one shape with
statements that can be read in the storyline of the event, and the event has what its header says
and nothing else.
-/

namespace Narrative

open Record

/-! ### Headers -/

/-- The fields of an event in its header, each of which may be absent or null. -/
structure Json.IsHeader (storyline : String) (record : Entries) : Prop where
  repeatable : Optionally record "repeatable" fun value => ∃ b, value = .bool b
  onDisplay : Optionally record "on_display" (Json.IsStatements storyline)
  triggers : Optionally record "triggers" (Json.IsTriggers storyline)
  actions : Optionally record "actions" (Json.IsActions storyline)

/-- The header, the names and the text of a file that an event can be made of. -/
structure Event.Accepted (header : Json) (storyline event description : String) : Prop where
  slugs : isSlug storyline = true ∧ isSlug event = true
  text : ∃ c ∈ description.toList, Text.isBlank c = false
  header : header = .null ∨ ∃ record, header = .obj record ∧ Json.IsHeader storyline record

/-- What the fields of a header say of an event. -/
structure Event.FieldsFrom (storyline : String) (record : Entries) (e : Event) : Prop where
  repeatable : Says (given? record "repeatable") (fun value b => value = .bool b) false e.repeatable
  onDisplay : Says (given? record "on_display") (Operation.ReadFrom storyline) [] e.onDisplay
  triggers : Says (given? record "triggers") (Triggers.ReadFrom storyline) .none e.triggers
  actions : Says (given? record "actions") (Action.AllReadFrom storyline) [] e.actions

/-- The event that the header, the names and the text of a file write. -/
structure Event.ReadFrom (header : Json) (storyline event description : String) (e : Event) :
    Prop where
  slugs : isSlug storyline = true ∧ isSlug event = true
  text : ∃ c ∈ description.toList, Text.isBlank c = false
  names : e.storyline = storyline ∧ e.event = event
  description : e.description = Text.trimmed description
  fields : ∃ record, Opens header record ∧ e.FieldsFrom storyline record

/-! ### Events -/

namespace EventRecord

variable {header : Json} {storyline event description : String} {r : EventRecord}

theorem checkSlugs_eq_ok_iff :
    checkSlugs storyline event = .ok () ↔ isSlug storyline = true ∧ isSlug event = true := by
  refine ⟨slugs_of_checkSlugs, fun ⟨hstoryline, hevent⟩ => ?_⟩
  have hfull : ∀ name, isSlug name = true → name.isEmpty = false := by
    intro name hname
    cases hempty : name.isEmpty with
    | false => rfl
    | true =>
      obtain rfl := String.isEmpty_iff.1 hempty
      exact absurd hname (by decide)
  unfold checkSlugs
  rw [hfull _ hstoryline, hfull _ hevent, hstoryline, hevent]
  rfl

theorem isEmpty_trimmed_iff :
    (Text.trimmed description).isEmpty = false ↔
      ∃ c ∈ description.toList, Text.isBlank c = false := by
  rw [← Bool.not_eq_true, String.isEmpty_iff, Text.trimmed, String.ofList_eq_empty_iff,
    Text.trim_eq_nil_iff]
  simp

/-- An event is repeatable when its header says so. -/
theorem repeatable_iff {record : Entries} {b : Bool} :
    (∃ found, optional record "repeatable" .boolean = .ok found ∧
      (found.bind Json.bool?).getD false = b) ↔
    Says (given? record "repeatable") (fun value b => value = .bool b) false b := by
  rw [optional_getD_iff makes_bool Json.bool? id fun _ => rfl]
  simp only [id_eq, exists_eq_right']

/-- The first pass over the fields of a header. -/
structure FieldsFrom (place : String) (record : Entries) (r : EventRecord) : Prop where
  repeatable : Says (given? record "repeatable") (fun value b => value = .bool b) false r.repeatable
  onDisplay : Says (given? record "on_display") (fun value codes => value = .arr (codes.map .str))
    [] r.onDisplay
  triggers : ∃ entries, Says (given? record "triggers") (fun value entries => value = .obj entries)
    [] entries ∧ readTriggers place entries = .ok r.triggers
  actions : ∃ entries, Says (given? record "actions") (fun value entries => value = .obj entries)
    [] entries ∧ eachEntry readAction entries = .ok r.actions

/-- The first pass over an event. -/
theorem read_eq_ok_iff : read header storyline event description = .ok r ↔
    (isSlug storyline = true ∧ isSlug event = true) ∧
      (∃ c ∈ description.toList, Text.isBlank c = false) ∧
      (r.storyline = storyline ∧ r.event = event) ∧ r.description = Text.trimmed description ∧
      ∃ record, Opens header record ∧ r.FieldsFrom (storyline ++ "/" ++ event) record := by
  constructor
  · intro h
    obtain ⟨_, hslugs, h⟩ := Except.exists_of_bind h
    have htext := Except.not_of_guard h
    obtain ⟨record, hrecord, h⟩ := Except.exists_of_bind (Except.of_guard h)
    obtain ⟨repeatable, hrepeatable, h⟩ := Except.exists_of_bind h
    obtain ⟨onDisplay, hdisplay, h⟩ := Except.exists_of_bind h
    obtain ⟨triggerEntries, htriggerEntries, h⟩ := Except.exists_of_bind h
    obtain ⟨triggers, htriggers, h⟩ := Except.exists_of_bind h
    obtain ⟨actionEntries, hactionEntries, h⟩ := Except.exists_of_bind h
    obtain ⟨actions, hactions, h⟩ := Except.exists_of_bind h
    obtain rfl := Except.ok.inj h
    refine ⟨checkSlugs_eq_ok_iff.1 hslugs, isEmpty_trimmed_iff.1 (by simpa using htext),
      ⟨rfl, rfl⟩, rfl, record, entriesOrNull_eq_ok_iff.1 hrecord, ?_⟩
    exact ⟨repeatable_iff.1 ⟨repeatable, hrepeatable, rfl⟩, optionalTexts_eq_ok_iff.1 hdisplay,
      ⟨_, optionalEntries_eq_ok_iff.1 htriggerEntries, htriggers⟩,
      ⟨_, optionalEntries_eq_ok_iff.1 hactionEntries, hactions⟩⟩
  · obtain ⟨_, _, _, _, _, _, _⟩ := r
    rintro ⟨hslugs, htext, ⟨rfl, rfl⟩, rfl, record, hopens, hrepeatable, hdisplay,
      ⟨triggerEntries, htriggerEntries, htriggers⟩, actionEntries, hactionEntries, hactions⟩
    obtain ⟨found, hfound, rfl⟩ := repeatable_iff.2 hrepeatable
    unfold read
    rw [checkSlugs_eq_ok_iff.2 hslugs]
    dsimp only [bind, Except.bind]
    rw [isEmpty_trimmed_iff.2 htext, entriesOrNull_eq_ok_iff.2 hopens]
    dsimp only
    rw [hfound, optionalTexts_eq_ok_iff.2 hdisplay, optionalEntries_eq_ok_iff.2 htriggerEntries]
    dsimp only at htriggers hactions ⊢
    rw [htriggers, optionalEntries_eq_ok_iff.2 hactionEntries]
    dsimp only
    rw [hactions]
    rfl

end EventRecord

namespace Event

variable {header : Json} {storyline event description : String} {e : Event}

/-- The second pass over an event. -/
theorem assemble_eq_ok_iff {r : EventRecord} : assemble r = .ok e ↔
    (e.storyline = r.storyline ∧ e.event = r.event) ∧ e.description = r.description ∧
      e.repeatable = r.repeatable ∧
      Operation.readAll (some r.storyline) r.onDisplay = .ok e.onDisplay ∧
      assembleTriggers r.storyline .none r.triggers = .ok e.triggers ∧
      assembleActions r.storyline r.actions = .ok e.actions := by
  constructor
  · intro h
    obtain ⟨triggers, htriggers, h⟩ := Except.exists_of_bind (Except.of_mapError h)
    obtain ⟨actions, hactions, h⟩ := Except.exists_of_bind h
    obtain ⟨onDisplay, hdisplay, h⟩ := Except.exists_of_bind h
    obtain rfl := Except.ok.inj h
    exact ⟨⟨rfl, rfl⟩, rfl, rfl, hdisplay, htriggers, hactions⟩
  · obtain ⟨_, _, _, _, _, _, _⟩ := e
    rintro ⟨⟨rfl, rfl⟩, rfl, rfl, hdisplay, htriggers, hactions⟩
    unfold assemble assembleParts
    dsimp only at hdisplay htriggers hactions
    rw [htriggers, hactions, hdisplay]
    rfl

/-- The two passes over an event. -/
theorem readFrom_iff : ReadFrom header storyline event description e ↔
    ∃ r, EventRecord.read header storyline event description = .ok r ∧ assemble r = .ok e := by
  constructor
  · rintro ⟨hslugs, htext, ⟨rfl, rfl⟩, hdescription, record, hopens, hfields⟩
    obtain ⟨codes, hcodes, hdisplay⟩ := Operation.says_iff.1 hfields.onDisplay
    obtain ⟨triggerEntries, htriggerEntries, triggers, hreadTriggers, htriggers⟩ :=
      (Triggers.says_iff (e.storyline ++ "/" ++ e.event)).1 hfields.triggers
    obtain ⟨actionEntries, hactionEntries, actions, hreadActions, hactions⟩ :=
      Action.says_iff.1 hfields.actions
    refine ⟨⟨e.storyline, e.event, e.description, e.repeatable, codes, triggers, actions⟩, ?_, ?_⟩
    · exact EventRecord.read_eq_ok_iff.2 ⟨hslugs, htext, ⟨rfl, rfl⟩, hdescription, record, hopens,
        hfields.repeatable, hcodes, ⟨_, htriggerEntries, hreadTriggers⟩, _, hactionEntries,
        hreadActions⟩
    · exact assemble_eq_ok_iff.2 ⟨⟨rfl, rfl⟩, rfl, rfl, hdisplay, htriggers, hactions⟩
  · rintro ⟨r, hread, hassemble⟩
    obtain ⟨hslugs, htext, ⟨rfl, rfl⟩, hdescription, record, hopens, hfields⟩ :=
      EventRecord.read_eq_ok_iff.1 hread
    obtain ⟨triggerEntries, htriggerEntries, hreadTriggers⟩ := hfields.triggers
    obtain ⟨actionEntries, hactionEntries, hreadActions⟩ := hfields.actions
    obtain ⟨hnames, htext', hsame, hdisplay, htriggers, hactions⟩ :=
      assemble_eq_ok_iff.1 hassemble
    refine ⟨hslugs, htext, hnames, htext'.trans hdescription, record, hopens,
      hsame ▸ hfields.repeatable, ?_, ?_, ?_⟩
    · exact Operation.says_iff.2 ⟨_, hfields.onDisplay, hdisplay⟩
    · exact (Triggers.says_iff _).2 ⟨_, htriggerEntries, _, hreadTriggers, htriggers⟩
    · exact Action.says_iff.2 ⟨_, hactionEntries, _, hreadActions, hactions⟩

theorem exists_fieldsFrom_iff {record : Entries} :
    (∃ e : Event, e.FieldsFrom storyline record) ↔ Json.IsHeader storyline record := by
  constructor
  · rintro ⟨e, hrepeatable, hdisplay, htriggers, hactions⟩
    exact ⟨(exists_says_iff fun _ => Iff.rfl).1 ⟨_, hrepeatable⟩,
      (exists_says_iff fun _ => Operation.exists_readFrom_iff).1 ⟨_, hdisplay⟩,
      (exists_says_iff fun _ => Triggers.exists_readFrom_iff).1 ⟨_, htriggers⟩,
      (exists_says_iff fun _ => Action.exists_allReadFrom_iff).1 ⟨_, hactions⟩⟩
  · rintro ⟨hrepeatable, hdisplay, htriggers, hactions⟩
    obtain ⟨repeatable, hflag⟩ := (exists_says_iff fun _ => Iff.rfl).2 hrepeatable
    obtain ⟨onDisplay, hreadDisplay⟩ :=
      (exists_says_iff fun _ => Operation.exists_readFrom_iff).2 hdisplay
    obtain ⟨triggers, hreadTriggers⟩ :=
      (exists_says_iff fun _ => Triggers.exists_readFrom_iff).2 htriggers
    obtain ⟨actions, hreadActions⟩ :=
      (exists_says_iff fun _ => Action.exists_allReadFrom_iff).2 hactions
    exact ⟨⟨"", "", "", repeatable, onDisplay, triggers, actions⟩, hflag, hreadDisplay,
      hreadTriggers, hreadActions⟩

theorem exists_readFrom_iff :
    (∃ e, ReadFrom header storyline event description e) ↔
      Accepted header storyline event description := by
  constructor
  · rintro ⟨e, hslugs, htext, -, -, record, hopens, hfields⟩
    refine ⟨hslugs, htext, ?_⟩
    rcases hopens with ⟨rfl, -⟩ | rfl
    · exact Or.inl rfl
    · exact Or.inr ⟨record, rfl, exists_fieldsFrom_iff.1 ⟨e, hfields⟩⟩
  · rintro ⟨hslugs, htext, hheader⟩
    have hfields : ∃ record, Opens header record ∧ Json.IsHeader storyline record := by
      rcases hheader with rfl | ⟨record, rfl, hshape⟩
      · exact ⟨[], Or.inl ⟨rfl, rfl⟩, ⟨nofun, nofun, nofun, nofun⟩⟩
      · exact ⟨record, Or.inr rfl, hshape⟩
    obtain ⟨record, hopens, hshape⟩ := hfields
    obtain ⟨e, hrepeatable, hdisplay, htriggers, hactions⟩ := exists_fieldsFrom_iff.2 hshape
    exact ⟨{ e with storyline, event, description := Text.trimmed description }, hslugs, htext,
      ⟨rfl, rfl⟩, rfl, record, hopens, hrepeatable, hdisplay, htriggers, hactions⟩

/-- A header is compiled exactly when it is accepted, and into the one event that it writes.  Where
no name is repeated among its triggers, those of the event are exactly the ones under the names of
their gates. -/
theorem compiles_iff_accepted (header : Json) (storyline event description : String) :
    ((∃ r e, EventRecord.read header storyline event description = .ok r ∧ assemble r = .ok e) ↔
      Accepted header storyline event description) ∧
    (∀ e, (∃ r, EventRecord.read header storyline event description = .ok r ∧
      assemble r = .ok e) ↔ ReadFrom header storyline event description e) ∧
    ∀ e, ReadFrom header storyline event description e → ∃ record, Opens header record ∧
      ∀ entries, record.lookup "triggers" = some (.obj entries) → (Entries.names entries).Nodup →
        ∀ gate t, e.triggers.get gate = some t ↔
          ∃ document, (gate.name, document) ∈ entries ∧
            Trigger.ReadFrom storyline document t := by
  refine ⟨?_, fun e => readFrom_iff.symm, fun e hread => ?_⟩
  · rw [← exists_readFrom_iff, exists_comm]
    exact exists_congr fun e => readFrom_iff.symm
  · obtain ⟨record, hopens, hfields⟩ := hread.fields
    refine ⟨record, hopens, fun entries hlookup honce => ?_⟩
    have hgiven : given? record "triggers" = some (.obj entries) :=
      given?_eq_some.2 ⟨hlookup, nofun⟩
    rcases hfields.triggers with ⟨hnone, -⟩ | ⟨_, hsome, found, rfl, htriggers⟩
    · exact absurd (hnone.symm.trans hgiven) nofun
    · obtain rfl : found = entries := Json.obj.inj (Option.some.inj (hsome.symm.trans hgiven))
      exact htriggers.get_iff honce

/-- The header of a pier where a ferry waits. -/
def pierHeader : Json :=
  .obj [("repeatable", .null), ("on_display", .arr [.str "sl.seen = true"]),
    ("triggers", .obj [
      ("soft", .obj [("condition", .str "g.ferry == \"in\""), ("weight", .num (.int 2))]),
      ("hard", .obj [("condition", .obj [("AND", .arr [.str "g.storm == true"])]),
        ("weight", .null)])]),
    ("actions", .obj [("Wait", .null),
      ("Board", .obj [("operations", .arr [.str "g.ferry = \"out\""]),
        ("condition", .str "g.ferry == \"in\"")])])]

/-- The record of the pier. -/
def pierRecord : EventRecord :=
  { storyline := "harbor", event := "pier", description := "Pier", repeatable := false
    onDisplay := ["sl.seen = true"]
    triggers := [(.soft, ⟨.str "g.ferry == \"in\"", 2.0⟩),
      (.hard, ⟨.obj [("AND", .arr [.str "g.storm == true"])], 1.0⟩)]
    actions := [("Wait", ⟨[], none⟩),
      ("Board", ⟨["g.ferry = \"out\""], some (.str "g.ferry == \"in\"")⟩)] }

/-- The event of the pier. -/
def pier : Event :=
  let ferry : Access := ⟨["global", "ferry"]⟩
  let waits : Condition := .atom (.access ferry) .equal (.text "in")
  let storm : Condition := .atom (.access ⟨["global", "storm"]⟩) .equal (.bool true)
  { event := "pier", storyline := "harbor", description := "Pier", repeatable := false
    onDisplay := [⟨⟨["storylines", "harbor", "seen"]⟩, .set, .bool true⟩]
    triggers := ⟨some ⟨.group .and [storm], 1.0⟩, some ⟨waits, 2.0⟩⟩
    actions := [("Wait", ⟨[], none⟩), ("Board", ⟨[⟨ferry, .set, .text "out"⟩], some waits⟩)] }

/-- The pier is what its header writes, with a trigger for each of the two gates. -/
theorem compiles_pier :
    Accepted pierHeader "harbor" "pier" " Pier\n" ∧
      pier.ReadFrom pierHeader "harbor" "pier" " Pier\n" ∧ ∃ record,
        Opens pierHeader record ∧ ∃ entries, record.lookup "triggers" = some (.obj entries) ∧
          ∀ gate t, pier.triggers.get gate = some t ↔
            ∃ document, (gate.name, document) ∈ entries ∧
              Trigger.ReadFrom "harbor" document t := by
  have hread : EventRecord.read pierHeader "harbor" "pier" " Pier\n" = .ok pierRecord := by
    decide +kernel
  have hassemble : assemble pierRecord = .ok pier := by decide +kernel
  obtain ⟨haccepted, hevent, htriggers⟩ :=
    compiles_iff_accepted pierHeader "harbor" "pier" " Pier\n"
  have hpier := (hevent pier).1 ⟨_, hread, hassemble⟩
  refine ⟨haccepted.1 ⟨_, _, hread, hassemble⟩, hpier, ?_⟩
  obtain ⟨record, hopens, hgates⟩ := htriggers pier hpier
  have hrecord : entriesOrNull pierHeader "" = .ok record := entriesOrNull_eq_ok_iff.2 hopens
  obtain rfl := Except.ok.inj hrecord
  exact ⟨_, hopens, _, rfl, hgates _ rfl (by decide +kernel)⟩

end Event

end Narrative
