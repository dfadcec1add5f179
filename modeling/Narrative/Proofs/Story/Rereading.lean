import Mathlib.Tactic.Common
import Narrative.Story.Coding
import Narrative.Proofs.Operand.Rereading

/-!
# Stories that are read again

Every record of a story, from conditions up to the story itself, decodes to what it writes with its
operands read again.
-/

namespace Narrative

open Json

/-! ### Conditions -/

namespace Comparison

theorem ofToken?_token (c : Comparison) : ofToken? c.token = some c := by
  cases c <;> decide

end Comparison

namespace Assignment

theorem ofToken?_token (a : Assignment) : ofToken? a.token = some a := by
  cases a <;> decide

end Assignment

namespace Connective

theorem ofToken?_token (c : Connective) : ofToken? c.token = some c := by
  cases c <;> decide

end Connective

namespace Condition

mutual

/-- The condition with its operands read again. -/
def reread : Condition → Condition
  | atom left operator right => atom left.reread operator right.reread
  | group connective members => group connective (rereadMembers members)

/-- `reread` on each member. -/
def rereadMembers : List Condition → List Condition
  | [] => []
  | member :: rest => reread member :: rereadMembers rest

end

mutual

/-- The operands of a condition. -/
def operands : Condition → List Operand
  | atom left _ right => [left, right]
  | group _ members => operandsOfMembers members

/-- The operands of all members. -/
def operandsOfMembers : List Condition → List Operand
  | [] => []
  | member :: rest => operands member ++ operandsOfMembers rest

end

mutual

theorem reread_eq_self_iff :
    (c : Condition) → (c.reread = c ↔ ∀ o ∈ c.operands, ¬o.Misleading)
  | .atom left _ right => by
    simp [reread, operands, Operand.reread_eq_self_iff]
  | .group _ members => by
    simp [reread, operands, rereadMembers_eq_self_iff members]

theorem rereadMembers_eq_self_iff : (members : List Condition) →
    (rereadMembers members = members ↔ ∀ o ∈ operandsOfMembers members, ¬o.Misleading)
  | [] => by simp [rereadMembers, operandsOfMembers]
  | member :: rest => by
    simp [rereadMembers, operandsOfMembers, reread_eq_self_iff member,
      rereadMembers_eq_self_iff rest, or_imp, forall_and]

end

theorem membersToJson_eq_map (members : List Condition) :
    membersToJson members = members.map toJson := by
  induction members with
  | nil => rfl
  | cons member rest ih => rw [membersToJson, ih, List.map_cons]

theorem form?_name (inside : Bool) (form : Form) :
    Form.ofJson? inside (.str form.name) = some form := by
  cases form <;> rfl

mutual

theorem decode?_toJson : (c : Condition) → (inside : Bool) →
    decode? inside c.toJson = some c.reread
  | .atom left operator right, inside => by
    have hform : formOf? inside [("_type", .str Form.atom.name), ("lhs", left.toJson),
        ("operator", .str operator.token), ("rhs", right.toJson)] = some .atom := by
      simp [formOf?, single?, form?_name]
    rw [toJson, decode?, hform]
    simp [atomOf?, fieldsNamed?, single?, Operand.ofJson?_toJson, looseWord?, word?,
      Comparison.ofToken?_token, reread]
  | .group connective members, inside => by
    have hform : formOf? inside [("_type", .str Form.group.name),
        ("boolean_operator", .str connective.token),
        ("conditions", .arr (membersToJson members))] = some .group := by
      simp [formOf?, single?, form?_name]
    have hconnective : connectiveOf? (.obj [("_type", .str Form.group.name),
        ("boolean_operator", .str connective.token),
        ("conditions", .arr (membersToJson members))]) = some connective := by
      simp [connectiveOf?, fieldsNamed?, single?, looseWord?, word?, Connective.ofToken?_token]
    rw [toJson, decode?, hform]
    simp [hconnective, membersIn?, members?_membersToJson members, reread]

theorem members?_membersToJson : (members : List Condition) →
    members? (membersToJson members) = some (rereadMembers members)
  | [] => by simp [membersToJson, members?, rereadMembers]
  | member :: rest => by
    simp [membersToJson, members?, decode?_toJson member, members?_membersToJson rest,
      rereadMembers]

end

theorem ofJson?_toJson (c : Condition) : ofJson? c.toJson = some c.reread :=
  decode?_toJson c false

end Condition

/-! ### Operations -/

namespace Json

/-- A record asks for its fields one by one. -/
theorem askedEntries_cons {shape part : Shape} {name : String} {value : Json}
    {entries : List (String × Json)} (hpart : shape.entry? name = some part)
    (hvalue : Asked part value) (hrest : AskedEntries shape entries) :
    AskedEntries shape ((name, value) :: entries) :=
  ⟨⟨part, hpart, hvalue⟩, hrest⟩

theorem asked_each_arr {α : Type} {part : Shape} {encode : α → Json} {l : List α}
    (h : ∀ x, Asked part (encode x)) : Asked (.each part) (.arr (l.map encode)) := by
  have hitems : ∀ number, AskedItems (.each part) number (l.map encode) := by
    induction l with
    | nil => exact fun _ => trivial
    | cons x l ih => exact fun number => ⟨h x, ih (number + 1)⟩
  exact hitems 0

theorem asked_each_obj {α : Type} {part : Shape} {encode : α → Json} {entries : List (String × α)}
    (h : ∀ x, Asked part (encode x)) :
    Asked (.each part) (.obj (Entries.mapValues encode entries)) := by
  show AskedEntries (.each part) (Entries.mapValues encode entries)
  induction entries with
  | nil => trivial
  | cons entry rest ih => exact ⟨⟨part, rfl, h entry.2⟩, ih⟩

end Json

theorem Access.asked (a : Access) : Asked shape a.toJson :=
  askedEntries_cons rfl (asked_whole _) <| askedEntries_cons rfl (asked_whole _) trivial

namespace Operation

/-- The operation with its operand read again. -/
def reread (o : Operation) : Operation :=
  { o with operand := o.operand.reread }

theorem reread_eq_self_iff (o : Operation) : o.reread = o ↔ ¬o.operand.Misleading := by
  rw [← Operand.reread_eq_self_iff]
  obtain ⟨target, operator, operand⟩ := o
  simp [reread]

theorem ofJson?_toJson (o : Operation) : ofJson? o.toJson = some o.reread := by
  simp [ofJson?, toJson, shape, fields?, fieldsNamed?, Shape.names, single?, word?,
    Access.ofJson?_toJson, Assignment.ofToken?_token, Operand.ofJson?_toJson, reread]

theorem asked (o : Operation) : Asked shape o.toJson :=
  askedEntries_cons rfl (Access.asked _) <| askedEntries_cons rfl (asked_whole _) <|
    askedEntries_cons rfl (asked_whole _) trivial

theorem map_reread_eq_self_iff (operations : List Operation) :
    operations.map reread = operations ↔
      ∀ o ∈ operations.map Operation.operand, ¬o.Misleading := by
  simp [map_eq_self_iff, reread_eq_self_iff]

theorem list?_operationsToJson (operations : List Operation) :
    list? ofJson? (operationsToJson operations) = some (operations.map reread) :=
  list?_arr_map fun o _ => ofJson?_toJson o

end Operation

/-! ### Events -/

namespace Trigger

/-- The trigger with the operands of its condition read again. -/
def reread (t : Trigger) : Trigger :=
  { t with condition := t.condition.reread }

theorem reread_eq_self_iff (t : Trigger) :
    t.reread = t ↔ ∀ o ∈ t.condition.operands, ¬o.Misleading := by
  rw [← Condition.reread_eq_self_iff]
  obtain ⟨condition, weight⟩ := t
  simp [reread]

theorem ofJson?_toJson (t : Trigger) : ofJson? t.toJson = some t.reread := by
  simp [ofJson?, toJson, shape, fields?, fieldsNamed?, Shape.ofNames, Shape.names, single?,
    Condition.ofJson?_toJson, fieldOr, float?, Number.toFloat, reread]

theorem asked (t : Trigger) : Asked shape t.toJson :=
  askedEntries_cons rfl (asked_whole _) <| askedEntries_cons rfl (asked_whole _) trivial

end Trigger

namespace Triggers

/-- The triggers with their operands read again. -/
def reread (t : Triggers) : Triggers :=
  ⟨t.hard.map Trigger.reread, t.soft.map Trigger.reread⟩

/-- The operands of the conditions of the triggers. -/
def operands (t : Triggers) : List Operand :=
  (t.hard.toList ++ t.soft.toList).flatMap fun trigger => trigger.condition.operands

theorem reread_eq_self_iff (t : Triggers) : t.reread = t ↔ ∀ o ∈ t.operands, ¬o.Misleading := by
  obtain ⟨hard, soft⟩ := t
  cases hard <;> cases soft <;>
    simp [reread, operands, Trigger.reread_eq_self_iff, or_imp, forall_and]

theorem optionalField_toJson (trigger : Trigger) :
    optionalField (some trigger.toJson) Trigger.ofJson? = some (some trigger.reread) := by
  have h := Trigger.ofJson?_toJson trigger
  rw [Trigger.toJson] at h ⊢
  simp [optionalField, h]

theorem ofJson?_toJson (t : Triggers) : ofJson? t.toJson = some t.reread := by
  obtain ⟨hard, soft⟩ := t
  cases hard <;> cases soft <;>
    simp [ofJson?, toJson, shape, fields?, fieldsNamed?, Shape.names, single?,
      optionalField_toJson, reread]
  all_goals rfl

theorem asked (t : Triggers) : Asked shape t.toJson := by
  obtain ⟨hard, soft⟩ := t
  cases hard <;> cases soft
  · exact trivial
  · exact askedEntries_cons rfl (Trigger.asked _) trivial
  · exact askedEntries_cons rfl (Trigger.asked _) trivial
  · exact askedEntries_cons rfl (Trigger.asked _) <| askedEntries_cons rfl (Trigger.asked _) trivial

end Triggers

namespace Action

/-- The action with its operands read again. -/
def reread (a : Action) : Action :=
  ⟨a.operations.map Operation.reread, a.condition.map Condition.reread⟩

/-- The operands of the operations and of the condition of an action. -/
def operands (a : Action) : List Operand :=
  a.operations.map Operation.operand ++ a.condition.toList.flatMap Condition.operands

theorem reread_eq_self_iff (a : Action) : a.reread = a ↔ ∀ o ∈ a.operands, ¬o.Misleading := by
  have hoperations := Operation.map_reread_eq_self_iff a.operations
  obtain ⟨operations, condition⟩ := a
  cases condition with
  | none =>
    simp only [reread, operands, mk.injEq, hoperations, Option.map_none, and_true, Option.toList_none,
      List.flatMap_nil, List.append_nil]
  | some condition =>
    simp only [reread, operands, mk.injEq, hoperations, List.mem_append, or_imp, forall_and,
      Option.map_some, Option.some.injEq, Condition.reread_eq_self_iff, Option.toList_some,
      List.flatMap_cons, List.flatMap_nil, List.append_nil]

theorem optionalField_toJson (c : Condition) :
    optionalField (some c.toJson) Condition.ofJson? = some (some c.reread) := by
  have h := Condition.ofJson?_toJson c
  cases c <;> rw [Condition.toJson] at h ⊢ <;> simp [optionalField, h]

theorem ofJson?_toJson (a : Action) : ofJson? a.toJson = some a.reread := by
  obtain ⟨operations, condition⟩ := a
  cases condition <;>
    simp [ofJson?, toJson, shape, fields?, fieldsNamed?, Shape.names, single?, fieldOr,
      Operation.list?_operationsToJson, optionalField_toJson, reread]
  rfl

theorem asked (a : Action) : Asked shape a.toJson := by
  obtain ⟨operations, condition⟩ := a
  have hoperations : Asked (.each Operation.shape) (operationsToJson operations) :=
    asked_each_arr Operation.asked
  cases condition
  · exact askedEntries_cons rfl hoperations trivial
  · exact askedEntries_cons rfl hoperations <| askedEntries_cons rfl (asked_whole _) trivial

end Action

namespace Event

/-- The event with its operands read again. -/
def reread (e : Event) : Event :=
  { e with
    onDisplay := e.onDisplay.map Operation.reread
    triggers := e.triggers.reread
    actions := Entries.mapValues Action.reread e.actions }

/-- The operands of everything that an event runs or checks. -/
def operands (e : Event) : List Operand :=
  e.onDisplay.map Operation.operand ++ e.triggers.operands ++
    e.actions.flatMap fun entry => entry.2.operands

theorem reread_eq_self_iff (e : Event) : e.reread = e ↔ ∀ o ∈ e.operands, ¬o.Misleading := by
  have hdisplay := Operation.map_reread_eq_self_iff e.onDisplay
  have htriggers := Triggers.reread_eq_self_iff e.triggers
  have hactions : Entries.mapValues Action.reread e.actions = e.actions ↔
      ∀ o ∈ e.actions.flatMap fun entry => entry.2.operands, ¬o.Misleading := by
    rw [Entries.mapValues_eq_self_iff]
    simp only [Action.reread_eq_self_iff, List.mem_flatMap]
    exact ⟨fun h o ⟨entry, hentry, ho⟩ => h entry hentry o ho,
      fun h entry hentry o ho => h o ⟨entry, hentry, ho⟩⟩
  obtain ⟨event, storyline, description, repeatable, onDisplay, triggers, actions⟩ := e
  simp only [reread, operands, mk.injEq, true_and, List.mem_append, or_imp, forall_and, hdisplay,
    htriggers, hactions, and_assoc]

theorem ofJson?_toJson {e : Event} (once : (Entries.names e.actions).Nodup) :
    ofJson? e.toJson = some e.reread := by
  have hactions := entriesOf?_mapValues (f := Action.reread) once fun entry _ =>
    Action.ofJson?_toJson entry.2
  simp [ofJson?, toJson, shape, fields?, fieldsNamed?, Shape.names, single?, fieldOr, Json.text?,
    bool?, Operation.list?_operationsToJson, Triggers.ofJson?_toJson, hactions, reread]

theorem asked (e : Event) : Asked shape e.toJson :=
  askedEntries_cons rfl (asked_whole _) <| askedEntries_cons rfl (asked_whole _) <|
    askedEntries_cons rfl (asked_whole _) <| askedEntries_cons rfl (asked_whole _) <|
    askedEntries_cons rfl (asked_each_arr Operation.asked) <|
    askedEntries_cons rfl (Triggers.asked _) <|
    askedEntries_cons rfl (asked_each_obj Action.asked) trivial

end Event

/-! ### Stories -/

namespace Resource

theorem ofJson?_toJson {r : Resource} (h : r.default.Proper) : ofJson? r.toJson = some r := by
  simp [ofJson?, toJson, shape, fields?, fieldsNamed?, Shape.ofNames, Shape.names, single?,
    Json.text?, normal_eq_self _ h]

theorem asked (r : Resource) : Asked shape r.toJson :=
  askedEntries_cons rfl (asked_whole _) <| askedEntries_cons rfl (asked_whole _) <|
    askedEntries_cons rfl (asked_whole _) <| askedEntries_cons rfl (asked_whole _) trivial

end Resource

namespace Story

/-- The story with its operands read again. -/
def reread (s : Story) : Story :=
  { s with events := s.events.map Event.reread }

/-- The operands of all events. -/
def operands (s : Story) : List Operand :=
  s.events.flatMap Event.operands

theorem reread_eq_self_iff (s : Story) : s.reread = s ↔ ∀ o ∈ s.operands, ¬o.Misleading := by
  have hevents : s.events.map Event.reread = s.events ↔
      ∀ o ∈ s.events.flatMap Event.operands, ¬o.Misleading := by
    simp only [map_eq_self_iff, Event.reread_eq_self_iff, List.mem_flatMap]
    exact ⟨fun h o ⟨e, he, ho⟩ => h e he o ho, fun h e he o ho => h o ⟨e, he, ho⟩⟩
  obtain ⟨version, title, description, resources, events, defaultState⟩ := s
  simp only [reread, operands, mk.injEq, true_and, and_true, hevents]

/-- A story is decoded field by field. -/
theorem ofJson?_of_fields {document version title description resources events state : Json}
    {s : Story}
    (hfields : document.fields? shape = some [some version, some title, some description,
      some resources, some events, some state])
    (hversion : version? version = some s.version) (htitle : title.text? = some s.title)
    (hdescription : description.text? = some s.description)
    (hresources : resources.entriesOf? Resource.ofJson? = some s.resources)
    (hevents : events.list? Event.ofJson? = some s.events)
    (hstate : state.normal.entries? = some s.defaultState) : ofJson? document = some s := by
  simp [ofJson?, hfields, hversion, htitle, hdescription, hresources, hevents, hstate]

theorem version?_nat {n : Nat} (h : n < 2 ^ 32) : version? (.nat n) = some n := by
  have hrange : (0 : Int) ≤ n ∧ (n : Int) < Nat.pow 2 32 := ⟨by omega, Int.ofNat_lt.2 h⟩
  rw [nat, version?, if_pos hrange, Int.toNat_natCast]

/-- The record of a story decodes to the story with its operands read again. -/
theorem ofJson?_toJson {s : Story} (hproper : s.toJson.Proper) (hversion : s.version < 2 ^ 32) :
    ofJson? s.toJson = some s.reread := by
  have hfields := hproper.values
  simp only [List.forall_mem_cons] at hfields
  obtain ⟨-, -, -, hresources, hevents, hstate, -⟩ := hfields
  have hresources : (Json.obj (Entries.mapValues Resource.toJson s.resources)).entriesOf?
      Resource.ofJson? = some (Entries.mapValues id s.resources) := by
    refine entriesOf?_mapValues (Entries.names_mapValues _ _ ▸ hresources.names) fun entry hentry =>
      Resource.ofJson?_toJson ?_
    have hrecord := hresources.values (entry.1, entry.2.toJson)
      (List.mem_map.2 ⟨entry, hentry, rfl⟩)
    exact hrecord.values ("default", entry.2.default) (by simp)
  have hevents : (Json.arr (s.events.map Event.toJson)).list? Event.ofJson? =
      some (s.events.map Event.reread) := by
    refine list?_arr_map fun e he => Event.ofJson?_toJson ?_
    have hrecord := hevents.items e.toJson (List.mem_map.2 ⟨e, he, rfl⟩)
    have hactions := hrecord.values ("actions", .obj (Entries.mapValues Action.toJson e.actions))
      (by simp)
    exact Entries.names_mapValues _ _ ▸ hactions.names
  have hself : Entries.mapValues id s.resources = s.resources :=
    Entries.mapValues_eq_self_iff.2 fun _ _ => rfl
  rw [hself] at hresources
  have hfields : s.toJson.fields? shape = some [some (.nat s.version), some (.str s.title),
      some (.str s.description), some (.obj (Entries.mapValues Resource.toJson s.resources)),
      some (.arr (s.events.map Event.toJson)), some (.obj s.defaultState)] := by
    simp [toJson, shape, fields?, fieldsNamed?, Shape.names, single?]
  refine ofJson?_of_fields hfields ?_ rfl rfl hresources hevents ?_
  · exact version?_nat hversion
  · rw [normal_eq_self _ hstate]
    rfl

theorem asked (s : Story) : Asked shape s.toJson :=
  askedEntries_cons rfl (asked_whole _) <| askedEntries_cons rfl (asked_whole _) <|
    askedEntries_cons rfl (asked_whole _) <|
    askedEntries_cons rfl (asked_each_obj Resource.asked) <|
    askedEntries_cons rfl (asked_each_arr Event.asked) <|
    askedEntries_cons rfl (asked_whole _) trivial

/-- The text of a story is read as the story with its operands read again. -/
theorem parse?_text {s : Story} (hproper : s.toJson.Proper) (hversion : s.version < 2 ^ 32)
    (hfloats : ∀ x ∈ s.toJson.floats, ReadsBack x) (hdepth : s.toJson.depth ≤ depthLimit) :
    parse? s.toJson.text = some s.reread := by
  have hlegible : Legible shape depthLimit s.toJson := ⟨hproper, hfloats, s.asked, hdepth⟩
  rw [parse?, Json.parse?_text hlegible, Option.bind_some, ofJson?_toJson hproper hversion]

end Story

end Narrative
