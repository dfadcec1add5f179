import Narrative.Proofs.Story.Settled

/-!
# Reading normalises

One value has many spellings: records as arrays of their fields, fields that are left out, names
that nobody asks for or that are repeated.  Whatever the spelling, the value that is read is written
in one way, and the text that is written is read as the same value.
-/

namespace Narrative

open Json

/-- How the values of a type are read and written as JSON: which parts of a document are asked for,
and a decoder that settles. -/
structure Format (α : Type) where
  shape : Shape
  encode : α → Json
  decode : Json → Option α
  /-- How deep the parts are written that may be left out. -/
  least : Nat
  shallow : least ≤ depthLimit
  asked : ∀ value, Asked shape (encode value)
  settles : Settles encode decode least

namespace Format

variable {α : Type}

/-- The value that a whole text writes. -/
def read? (f : Format α) (text : String) : Option α :=
  (Json.parse? f.shape text).bind f.decode

/-- The text of a value. -/
def write (f : Format α) (value : α) : String :=
  (f.encode value).text

end Format

/-! ### The types of a story -/

theorem Snapshot.asked (s : Snapshot) : Asked shape s.toJson :=
  askedEntries_cons rfl (asked_whole _) <| askedEntries_cons rfl (asked_whole _) <|
    askedEntries_cons rfl (asked_whole _) trivial

/-- The types that are read and written. -/
inductive Schema where
  | value
  | access
  | condition
  | operation
  | trigger
  | triggers
  | action
  | event
  | resource
  | story
  | snapshot
  | state
deriving DecidableEq

namespace Schema

/-- The values of a type. -/
def Value : Schema → Type
  | value => Operand
  | access => Access
  | condition => Condition
  | operation => Operation
  | trigger => Trigger
  | triggers => Triggers
  | action => Action
  | event => Event
  | resource => Resource
  | story => Story
  | snapshot => Snapshot
  | state => State

/-- The format of a type. -/
def format : (schema : Schema) → Format schema.Value
  | value => ⟨.whole, Operand.toJson, Operand.ofJson?, 0, by decide, fun v => asked_whole v.toJson,
      Operand.settles⟩
  | access => ⟨Access.shape, Access.toJson, Access.ofJson?, 0, by decide, Access.asked,
      Access.settles⟩
  | condition => ⟨.whole, Condition.toJson, Condition.ofJson?, 0, by decide,
      fun c => asked_whole c.toJson, Condition.settles⟩
  | operation => ⟨Operation.shape, Operation.toJson, Operation.ofJson?, 0, by decide,
      Operation.asked, Operation.settles⟩
  | trigger => ⟨Trigger.shape, Trigger.toJson, Trigger.ofJson?, 0, by decide, Trigger.asked,
      Trigger.settles⟩
  | triggers => ⟨Triggers.shape, Triggers.toJson, Triggers.ofJson?, 0, by decide, Triggers.asked,
      Triggers.settles⟩
  | action => ⟨Action.shape, Action.toJson, Action.ofJson?, 2, by decide, Action.asked,
      Action.settles⟩
  | event => ⟨Event.shape, Event.toJson, Event.ofJson?, 4, by decide, Event.asked, Event.settles⟩
  | resource => ⟨Resource.shape, Resource.toJson, Resource.ofJson?, 0, by decide, Resource.asked,
      Resource.settles⟩
  | story => ⟨Story.shape, Story.toJson, Story.ofJson?, 6, by decide, Story.asked, Story.settles⟩
  | snapshot => ⟨Snapshot.shape, Snapshot.toJson, Snapshot.ofJson?, 0, by decide, Snapshot.asked,
      Snapshot.settles⟩
  | state => ⟨.whole, State.root, State.ofJson?, 0, by decide, fun s => asked_whole s.root,
      State.settles⟩

/-- Stories are read as the players of a story read them. -/
example (text : String) : story.format.read? text = Story.parse? text :=
  rfl

/-- What any text is read as is read again from the text that it is written as, in every type.  The
finite floats of the value have to be read back from their own texts. -/
theorem read_write_of_read (schema : Schema) {text : String} {value : schema.Value}
    (h : schema.format.read? text = some value)
    (hfloats : ∀ x ∈ (schema.format.encode value).floats, x.isFinite = true → ReadsBack x) :
    schema.format.read? (schema.format.write value) = some value := by
  obtain ⟨document, hdocument, hvalue⟩ := Option.bind_eq_some_iff.1 h
  have hsettled := schema.format.settles (fits_of_parse? hdocument) hvalue
  rw [Nat.max_eq_left schema.format.shallow] at hsettled
  have hproper := hsettled.neat.proper
  have hlegible : Legible schema.format.shape depthLimit (schema.format.encode value) :=
    ⟨hproper, fun x hx => hfloats x hx (hproper.isFinite x hx), schema.format.asked value,
      hsettled.neat.depth⟩
  rw [Format.read?, Format.write, parse?_text hlegible, Option.bind_some, hsettled.again]

/-- The text of an event as an array of its fields, with operations and conditions as arrays, a
weight left out, a trigger of an unknown name, and the action `Go` given twice. -/
def oddText : String :=
  "[\"e\",\"s\",\"d\",false,[[[\"state\",[\"global\",\"n\"]],\"+=\",2]]," ++
    "\x7b\"soft\":[[\"atomic_condition\",[\"state\",[\"global\",\"n\"]],\"<\",3]]," ++
    "\"other\":1e999\x7d," ++
    "\x7b\"Go\":\x7b\"operations\":[]\x7d,\"Stay\":\x7b\"condition\":null\x7d,\"Go\":\x7b\x7d\x7d]"

/-- What `oddText` is read as. -/
def oddEvent : Event :=
  { event := "e", storyline := "s", description := "d", repeatable := false
    onDisplay := [⟨⟨["global", "n"]⟩, .add, .number 2⟩]
    triggers := ⟨none, some ⟨.atom (.access ⟨["global", "n"]⟩) .less (.number 3), 1.0⟩⟩
    actions := [("Go", ⟨[], none⟩), ("Stay", ⟨[], none⟩)] }

/-- The odd text is read, and its event is written in another way, which is read as the same event.
-/
theorem read_write_oddEvent :
    Schema.event.format.read? oddText = some oddEvent ∧
      Schema.event.format.write oddEvent ≠ oddText ∧
      Schema.event.format.read? (Schema.event.format.write oddEvent) = some oddEvent := by
  have hread : Schema.event.format.read? oddText = some oddEvent := by
    show (Json.parse? Event.shape oddText).bind Event.ofJson? = some oddEvent
    decide +kernel
  have hfloats : ∀ x ∈ (Schema.event.format.encode oddEvent).floats, x.isFinite = true →
      ReadsBack x := by
    decide +kernel
  have hwritten : Schema.event.format.write oddEvent ≠ oddText := by decide +kernel
  exact ⟨hread, hwritten, read_write_of_read .event hread hfloats⟩

end Schema

end Narrative
