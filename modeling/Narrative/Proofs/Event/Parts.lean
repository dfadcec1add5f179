import Mathlib.Tactic.Common
import Mathlib.Data.List.Forall2
import Narrative.Event.Assembly
import Narrative.Proofs.Bundle.Written
import Narrative.Proofs.Record.Fields

/-!
# Parts of headers

The operations, conditions, triggers and actions in the header of an event are compiled in two
passes: one checks the shape of the header, the other reads the statements in it.  For each of these
parts one relation says what both passes make of it, and one shape says when they succeed.
-/

namespace Narrative

open Record

/-! ### Shapes -/

namespace Json

/-- A document that writes a condition in a storyline. -/
def IsCondition (storyline : String) (document : Json) : Prop :=
  ∃ c, Condition.read (some storyline) document = .ok c

/-- A list of texts that each write an operation in a storyline. -/
def IsStatements (storyline : String) (document : Json) : Prop :=
  ∃ codes : List String, document = .arr (codes.map .str) ∧
    ∀ code ∈ codes, ∃ o, Operation.read (some storyline) code = .ok o

/-- A trigger: an object with a condition, and with a weight that is a number if it has one. -/
def IsTrigger (storyline : String) (document : Json) : Prop :=
  ∃ record condition, document = .obj record ∧
    record.lookup "condition" = some condition ∧ condition ≠ .null ∧
    condition.IsCondition storyline ∧ Optionally record "weight" fun value => ∃ n, value = .num n

/-- An action: null, or an object with operations and a condition if it has them. -/
def IsAction (storyline : String) (document : Json) : Prop :=
  document = .null ∨ ∃ record, document = .obj record ∧
    Optionally record "operations" (IsStatements storyline) ∧
    Optionally record "condition" (IsCondition storyline)

/-- An object of triggers, each under the name of a gate. -/
def IsTriggers (storyline : String) (document : Json) : Prop :=
  ∃ entries, document = .obj entries ∧
    ∀ entry ∈ entries, (entry.1 = "hard" ∨ entry.1 = "soft") ∧ entry.2.IsTrigger storyline

/-- An object of actions. -/
def IsActions (storyline : String) (document : Json) : Prop :=
  ∃ entries, document = .obj entries ∧ ∀ entry ∈ entries, entry.2.IsAction storyline

end Json

/-! ### What is read -/

/-- The operations that a list of statements writes, in order. -/
def Operation.ReadFrom (storyline : String) (document : Json) (operations : List Operation) :
    Prop :=
  ∃ codes, document = .arr (codes.map .str) ∧
    List.Forall₂ (fun code o => read (some storyline) code = .ok o) codes operations

/-- The condition that a document writes, where there may be none. -/
def Condition.ReadFrom (storyline : String) (document : Json) (condition : Option Condition) :
    Prop :=
  ∃ c, condition = some c ∧ read (some storyline) document = .ok c

/-- The trigger that a document writes, with the weight one if it has none. -/
def Trigger.ReadFrom (storyline : String) (document : Json) (t : Trigger) : Prop :=
  ∃ record, document = .obj record ∧
    (∃ condition, given? record "condition" = some condition ∧
      Condition.read (some storyline) condition = .ok t.condition) ∧
    Says (given? record "weight") (fun value w => ∃ n, value = .num n ∧ w = n.toFloat) 1.0 t.weight

/-- The triggers that the entries of an object write, added to others one after the other. -/
def Triggers.ReadOnto (storyline : String) (entries : Entries) (before triggers : Triggers) :
    Prop :=
  ∃ made : List (Gate × Trigger),
    List.Forall₂ (fun entry named => Gate.ofName? entry.1 = some named.1 ∧
      Trigger.ReadFrom storyline entry.2 named.2) entries made ∧
    triggers = made.foldl (fun triggers named => triggers.set named.2 named.1) before

/-- The triggers that an object writes. -/
def Triggers.ReadFrom (storyline : String) (document : Json) (triggers : Triggers) : Prop :=
  ∃ entries, document = .obj entries ∧ ReadOnto storyline entries none triggers

/-- The action that a document writes. -/
def Action.ReadFrom (storyline : String) (document : Json) (a : Action) : Prop :=
  ∃ record, Opens document record ∧
    Says (given? record "operations") (Operation.ReadFrom storyline) [] a.operations ∧
    Says (given? record "condition") (Condition.ReadFrom storyline) none a.condition

/-- The actions that the entries of an object write, one under each name, in order. -/
def Action.EachReadFrom (storyline : String) (entries : Entries)
    (actions : List (String × Action)) : Prop :=
  List.Forall₂ (fun entry named => named.1 = entry.1 ∧ ReadFrom storyline entry.2 named.2) entries
    actions

/-- The actions that an object writes. -/
def Action.AllReadFrom (storyline : String) (document : Json) (actions : List (String × Action)) :
    Prop :=
  ∃ entries, document = .obj entries ∧ EachReadFrom storyline entries actions

/-! ### Lists -/

theorem exists_forall₂_iff {α β : Type} {R : α → β → Prop} {l : List α} :
    (∃ made, List.Forall₂ R l made) ↔ ∀ a ∈ l, ∃ b, R a b := by
  constructor
  · rintro ⟨made, h⟩ a ha
    obtain ⟨b, -, hab⟩ := Bundle.exists_of_forall₂ h ha
    exact ⟨b, hab⟩
  · intro h
    induction l with
    | nil => exact ⟨[], .nil⟩
    | cons a l ih =>
      obtain ⟨b, hb⟩ := h a List.mem_cons_self
      obtain ⟨made, hmade⟩ := ih fun other hother => h other (List.mem_cons_of_mem _ hother)
      exact ⟨b :: made, .cons hb hmade⟩

namespace Operation

variable {storyline : String} {operations : List Operation}

theorem readAll_eq_ok_iff {codes : List String} :
    readAll (some storyline) codes = .ok operations ↔
      List.Forall₂ (fun code o => read (some storyline) code = .ok o) codes operations := by
  induction codes generalizing operations with
  | nil =>
    rw [readAll, Except.ok.injEq, List.forall₂_nil_left_iff, eq_comm]
  | cons code codes ih =>
    rw [List.forall₂_cons_left_iff]
    constructor
    · intro h
      rw [readAll] at h
      split at h
      · cases h
      · rename_i o ho
        obtain ⟨others, hothers, rfl⟩ := Except.exists_of_map h
        exact ⟨o, others, ho, ih.1 hothers, rfl⟩
    · rintro ⟨o, others, ho, hothers, rfl⟩
      rw [readAll, ho, ih.2 hothers]
      rfl

/-- The two passes over a field of statements. -/
theorem says_iff {field : Option Json} : Says field (ReadFrom storyline) [] operations ↔
    ∃ codes, Says field (fun value codes => value = .arr (codes.map .str)) [] codes ∧
      readAll (some storyline) codes = .ok operations := by
  simp only [readAll_eq_ok_iff]
  exact (says_comp_iff _ List.forall₂_nil_left_iff).symm

theorem exists_readFrom_iff {document : Json} :
    (∃ operations, ReadFrom storyline document operations) ↔ document.IsStatements storyline := by
  unfold ReadFrom Json.IsStatements
  rw [exists_comm]
  simp only [exists_and_left, exists_forall₂_iff]

end Operation

theorem Condition.exists_readFrom_iff {storyline : String} {document : Json} :
    (∃ condition, ReadFrom storyline document condition) ↔ document.IsCondition storyline :=
  ⟨fun ⟨_, c, _, hread⟩ => ⟨c, hread⟩, fun ⟨c, hread⟩ => ⟨some c, c, rfl, hread⟩⟩

/-! ### Triggers -/

namespace Trigger

variable {storyline : String} {document : Json} {t : Trigger}

/-- The weight of a trigger is a number that is given, or one. -/
theorem weight_iff {record : Entries} {w : Float} :
    (∃ weight, optional record "weight" .number = .ok weight ∧
      (weight.bind Json.float?).getD 1.0 = w) ↔
    Says (given? record "weight") (fun value w => ∃ n, value = .num n ∧ w = n.toFloat) 1.0 w :=
  optional_getD_iff makes_num Json.float? Number.toFloat fun _ => rfl

/-- The two passes over a trigger. -/
theorem readFrom_iff (place : String) (gate : Gate) : ReadFrom storyline document t ↔
    ∃ record, EventRecord.readTrigger place gate document = .ok record ∧
      Condition.read (some storyline) record.condition = .ok t.condition ∧
      record.weight = t.weight := by
  constructor
  · rintro ⟨record, rfl, ⟨condition, hgiven, hread⟩, hweight⟩
    obtain ⟨weight, hfield, hw⟩ := weight_iff.2 hweight
    obtain ⟨hlookup, hnull⟩ := given?_eq_some.1 hgiven
    refine ⟨⟨condition, (weight.bind Json.float?).getD 1.0⟩, ?_, hread, hw⟩
    unfold EventRecord.readTrigger
    dsimp only
    rw [hlookup, hfield]
    cases condition with
    | null => exact absurd rfl hnull
    | _ => rfl
  · rintro ⟨made, hmade, hread, hweight⟩
    unfold EventRecord.readTrigger at hmade
    split at hmade
    · rename_i record
      split at hmade
      · cases hmade
      · cases hmade
      · rename_i condition hnull hlookup
        obtain ⟨weight, hfield, hmade⟩ := Except.exists_of_bind hmade
        obtain rfl := Except.ok.inj hmade
        exact ⟨record, rfl, ⟨condition, given?_eq_some.2 ⟨hlookup, hnull⟩, hread⟩,
          weight_iff.1 ⟨weight, hfield, hweight⟩⟩
    · cases hmade

theorem exists_readFrom_iff :
    (∃ t, ReadFrom storyline document t) ↔ document.IsTrigger storyline := by
  have hweights (value : Json) :
      (∃ w, ∃ n : Number, value = .num n ∧ w = n.toFloat) ↔ ∃ n, value = .num n := by
    rw [exists_comm]
    simp only [exists_and_left, exists_eq, and_true]
  constructor
  · rintro ⟨t, record, rfl, ⟨condition, hgiven, hread⟩, hweight⟩
    obtain ⟨hlookup, hnull⟩ := given?_eq_some.1 hgiven
    exact ⟨record, condition, rfl, hlookup, hnull, ⟨_, hread⟩,
      (exists_says_iff hweights).1 ⟨_, hweight⟩⟩
  · rintro ⟨record, condition, rfl, hlookup, hnull, ⟨c, hread⟩, hshape⟩
    obtain ⟨w, hweight⟩ := (exists_says_iff hweights).2 hshape
    exact ⟨⟨c, w⟩, record, rfl, ⟨condition, given?_eq_some.2 ⟨hlookup, hnull⟩, hread⟩, hweight⟩

/-- A document writes one trigger. -/
theorem ReadFrom.unique {u : Trigger} (ht : ReadFrom storyline document t)
    (hu : ReadFrom storyline document u) : t = u := by
  obtain ⟨record, hrecord, hcondition, hweight⟩ := (readFrom_iff "" .hard).1 ht
  obtain ⟨other, hother, hcondition', hweight'⟩ := (readFrom_iff "" .hard).1 hu
  obtain rfl := Except.ok.inj (hrecord.symm.trans hother)
  obtain ⟨condition, weight⟩ := t
  obtain rfl := Except.ok.inj (hcondition.symm.trans hcondition')
  obtain rfl : record.weight = weight := hweight
  exact congrArg (Trigger.mk u.condition) hweight'

end Trigger

namespace Gate

theorem name_of_ofName? {name : String} {gate : Gate} (h : ofName? name = some gate) :
    gate.name = name := by
  have hfound := List.find?_some h
  exact beq_iff_eq.1 hfound

theorem ofName?_name (gate : Gate) : ofName? gate.name = some gate := by
  cases gate <;> decide +kernel

end Gate

namespace Triggers

variable {storyline : String} {entries : Entries} {before triggers : Triggers}

/-- The two passes over triggers. -/
theorem readOnto_iff (place : String) : ReadOnto storyline entries before triggers ↔
    ∃ records, EventRecord.readTriggers place entries = .ok records ∧
      Event.assembleTriggers storyline before records = .ok triggers := by
  induction entries generalizing before with
  | nil =>
    constructor
    · rintro ⟨made, hmade, rfl⟩
      cases hmade
      exact ⟨[], rfl, rfl⟩
    · rintro ⟨records, hrecords, htriggers⟩
      obtain rfl := Except.ok.inj hrecords
      exact ⟨[], .nil, (Except.ok.inj htriggers).symm⟩
  | cons entry rest ih =>
    obtain ⟨key, document⟩ := entry
    constructor
    · rintro ⟨made, hmade, rfl⟩
      obtain ⟨⟨gate, t⟩, others, ⟨hgate, htrigger⟩, hothers, rfl⟩ :=
        List.forall₂_cons_left_iff.1 hmade
      obtain ⟨record, hrecord, hcondition, hweight⟩ := (Trigger.readFrom_iff place gate).1 htrigger
      obtain ⟨records, hrecords, htriggers⟩ := ih.1 ⟨others, hothers, rfl⟩
      refine ⟨(gate, record) :: records, ?_, ?_⟩
      · rw [EventRecord.readTriggers, hgate]
        dsimp only
        rw [hrecord, hrecords]
        rfl
      · rw [Event.assembleTriggers, hcondition, hweight]
        exact htriggers
    · rintro ⟨records, hrecords, htriggers⟩
      rw [EventRecord.readTriggers] at hrecords
      split at hrecords
      · cases hrecords
      rename_i gate hgate
      split at hrecords
      · cases hrecords
      rename_i record hrecord
      obtain ⟨others, hothers, rfl⟩ := Except.exists_of_map hrecords
      rw [Event.assembleTriggers] at htriggers
      split at htriggers
      · cases htriggers
      rename_i condition hcondition
      obtain ⟨made, hmade, rfl⟩ := ih.2 ⟨others, hothers, htriggers⟩
      have htrigger : Trigger.ReadFrom storyline document ⟨condition, record.weight⟩ :=
        (Trigger.readFrom_iff place gate).2 ⟨record, hrecord, hcondition, rfl⟩
      exact ⟨(gate, ⟨condition, record.weight⟩) :: made, .cons ⟨hgate, htrigger⟩ hmade, rfl⟩

theorem exists_readOnto_iff : (∃ triggers, ReadOnto storyline entries before triggers) ↔
    ∀ entry ∈ entries, (entry.1 = "hard" ∨ entry.1 = "soft") ∧ entry.2.IsTrigger storyline := by
  have hname : ∀ name, (∃ gate, Gate.ofName? name = some gate) ↔ name = "hard" ∨ name = "soft" := by
    intro name
    constructor
    · rintro ⟨gate, hgate⟩
      rw [← Gate.name_of_ofName? hgate]
      cases gate with
      | hard => exact Or.inl rfl
      | soft => exact Or.inr rfl
    · rintro (rfl | rfl)
      · exact ⟨.hard, Gate.ofName?_name .hard⟩
      · exact ⟨.soft, Gate.ofName?_name .soft⟩
  have heach : ∀ entry : String × Json, (∃ named : Gate × Trigger,
      Gate.ofName? entry.1 = some named.1 ∧ Trigger.ReadFrom storyline entry.2 named.2) ↔
        (entry.1 = "hard" ∨ entry.1 = "soft") ∧ entry.2.IsTrigger storyline := by
    intro entry
    rw [← hname, ← Trigger.exists_readFrom_iff]
    exact ⟨fun ⟨named, hgate, ht⟩ => ⟨⟨named.1, hgate⟩, named.2, ht⟩,
      fun ⟨⟨gate, hgate⟩, t, ht⟩ => ⟨(gate, t), hgate, ht⟩⟩
  simp only [← heach]
  rw [← exists_forall₂_iff]
  exact ⟨fun ⟨_, made, hmade, _⟩ => ⟨made, hmade⟩, fun ⟨made, hmade⟩ => ⟨_, made, hmade, rfl⟩⟩

theorem exists_readFrom_iff {document : Json} :
    (∃ triggers, ReadFrom storyline document triggers) ↔ document.IsTriggers storyline := by
  unfold ReadFrom Json.IsTriggers
  rw [exists_comm]
  simp only [exists_and_left, exists_readOnto_iff]

/-- The two passes over a field of triggers. -/
theorem says_iff {field : Option Json} (place : String) :
    Says field (ReadFrom storyline) .none triggers ↔
      ∃ entries, Says field (fun value entries => value = .obj entries) [] entries ∧
        ∃ records, EventRecord.readTriggers place entries = .ok records ∧
          Event.assembleTriggers storyline .none records = .ok triggers := by
  have hnone : ReadOnto storyline [] .none triggers ↔ triggers = .none := by
    simp [ReadOnto]
  simp only [← readOnto_iff place]
  exact (says_comp_iff (ReadOnto storyline · .none ·) hnone).symm

/-- Of triggers with different gates each one stays under its gate. -/
theorem get_foldl {made : List (Gate × Trigger)} (honce : (made.map Prod.fst).Nodup) {gate : Gate}
    {t : Trigger} :
    (made.foldl (fun triggers named => triggers.set named.2 named.1) before).get gate = some t ↔
      (gate, t) ∈ made ∨ (gate ∉ made.map Prod.fst ∧ before.get gate = some t) := by
  induction made generalizing before with
  | nil => simp
  | cons named rest ih =>
    obtain ⟨other, u⟩ := named
    obtain ⟨hother, hrest⟩ := List.nodup_cons.1 honce
    rw [List.foldl_cons, ih hrest, get_set]
    by_cases hgate : gate = other
    · subst hgate
      have hrest' : (gate, t) ∉ rest := 
        fun hmem => hother (List.mem_map.2 ⟨_, hmem, rfl⟩)
      simp [hrest', hother, eq_comm]
    · simp [hgate]

/-- With different names in an object, its triggers are those under the names of their gates. -/
theorem ReadOnto.get_iff (h : ReadOnto storyline entries .none triggers)
    (honce : (Entries.names entries).Nodup) (gate : Gate) (t : Trigger) :
    triggers.get gate = some t ↔
      ∃ document, (gate.name, document) ∈ entries ∧ Trigger.ReadFrom storyline document t := by
  obtain ⟨made, hmade, rfl⟩ := h
  have hnames : (made.map Prod.fst).map Gate.name = Entries.names entries := by
    clear honce
    induction hmade with
    | nil => rfl
    | cons hfirst _ ih =>
      rw [List.map_cons, List.map_cons, ih, Gate.name_of_ofName? hfirst.1]
      rfl
  have hgates : (made.map Prod.fst).Nodup := List.Nodup.of_map _ (hnames ▸ honce)
  have hnone : none.get gate ≠ some t := by
    cases gate <;> exact nofun
  rw [get_foldl hgates, or_iff_left fun h => hnone h.2]
  constructor
  · intro hmem
    obtain ⟨⟨name, document⟩, hentry, hgate, ht⟩ := Bundle.exists_of_forall₂ hmade.flip hmem
    exact ⟨document, Gate.name_of_ofName? hgate ▸ hentry, ht⟩
  · rintro ⟨document, hentry, ht⟩
    obtain ⟨⟨other, u⟩, hmem, hgate, hu⟩ := Bundle.exists_of_forall₂ hmade hentry
    obtain rfl := Option.some.inj ((Gate.ofName?_name gate).symm.trans hgate)
    exact ht.unique hu ▸ hmem

end Triggers

/-! ### Actions -/

namespace Action

variable {storyline : String} {document : Json} {entries : Entries}

/-- The first pass over an action. -/
theorem readAction_eq_ok_iff {name : String} {made : ActionRecord} :
    EventRecord.readAction name document = .ok made ↔
      ∃ record, Opens document record ∧
        Says (given? record "operations") (fun value codes => value = .arr (codes.map .str)) []
          made.operations ∧
        made.condition = given? record "condition" := by
  have hread : EventRecord.readAction name document = (do
      let record ← Record.entriesOrNull document name
      let operations ← Record.optionalTexts record "operations"
      pure ⟨operations, given? record "condition"⟩) := by
    refine bind_congr fun record => bind_congr fun operations => ?_
    unfold given?
    cases record.lookup "condition" with
    | none => rfl
    | some value => cases value <;> rfl
  rw [hread]
  constructor
  · intro h
    obtain ⟨record, hrecord, h⟩ := Except.exists_of_bind h
    obtain ⟨operations, hoperations, h⟩ := Except.exists_of_bind h
    obtain rfl := Except.ok.inj h
    exact ⟨record, entriesOrNull_eq_ok_iff.1 hrecord, optionalTexts_eq_ok_iff.1 hoperations, rfl⟩
  · rintro ⟨record, hopens, hoperations, hcondition⟩
    rw [entriesOrNull_eq_ok_iff.2 hopens]
    dsimp only [bind, Except.bind]
    rw [optionalTexts_eq_ok_iff.2 hoperations, ← hcondition]
    rfl

/-- The second pass over an action. -/
theorem assembleAction_eq_ok_iff {record : ActionRecord} {a : Action} :
    Event.assembleAction storyline record = .ok a ↔
      Operation.readAll (some storyline) record.operations = .ok a.operations ∧
        Says record.condition (Condition.ReadFrom storyline) none a.condition := by
  constructor
  · intro h
    obtain ⟨operations, hoperations, h⟩ := Except.exists_of_bind h
    split at h
    · rename_i hnone
      obtain rfl := Except.ok.inj h
      exact ⟨hoperations, Or.inl ⟨hnone, rfl⟩⟩
    · rename_i value hvalue
      obtain ⟨c, hread, h⟩ := Except.exists_of_bind h
      obtain rfl := Except.ok.inj h
      exact ⟨hoperations, Or.inr ⟨value, hvalue, c, rfl, hread⟩⟩
  · obtain ⟨operations, condition⟩ := a
    rintro ⟨hoperations, ⟨hnone, rfl⟩ | ⟨value, hvalue, c, rfl, hread⟩⟩
    · unfold Event.assembleAction
      rw [hoperations, hnone]
      rfl
    · unfold Event.assembleAction
      rw [hoperations, hvalue]
      dsimp only [bind, Except.bind]
      rw [hread]
      rfl

/-- The two passes over an action. -/
theorem readFrom_iff {a : Action} (name : String) : ReadFrom storyline document a ↔
    ∃ record, EventRecord.readAction name document = .ok record ∧
      Event.assembleAction storyline record = .ok a := by
  simp only [ReadFrom, Operation.says_iff, readAction_eq_ok_iff, assembleAction_eq_ok_iff]
  constructor
  · rintro ⟨record, hopens, ⟨codes, hcodes, hread⟩, hcondition⟩
    exact ⟨⟨codes, given? record "condition"⟩, ⟨record, hopens, hcodes, rfl⟩, hread, hcondition⟩
  · rintro ⟨made, ⟨record, hopens, hcodes, hgiven⟩, hread, hcondition⟩
    exact ⟨record, hopens, ⟨_, hcodes, hread⟩, hgiven ▸ hcondition⟩

theorem exists_readFrom_iff :
    (∃ a, ReadFrom storyline document a) ↔ document.IsAction storyline := by
  constructor
  · rintro ⟨a, record, ⟨rfl, -⟩ | rfl, hread, hwritten⟩
    · exact Or.inl rfl
    · exact Or.inr ⟨record, rfl,
        (exists_says_iff fun _ => Operation.exists_readFrom_iff).1 ⟨_, hread⟩,
        (exists_says_iff fun _ => Condition.exists_readFrom_iff).1 ⟨_, hwritten⟩⟩
  · rintro (rfl | ⟨record, rfl, hshape, hwritten⟩)
    · exact ⟨⟨[], none⟩, [], Or.inl ⟨rfl, rfl⟩, Or.inl ⟨rfl, rfl⟩, Or.inl ⟨rfl, rfl⟩⟩
    · obtain ⟨operations, hread⟩ :=
        (exists_says_iff fun _ => Operation.exists_readFrom_iff).2 hshape
      obtain ⟨condition, hwritten⟩ :=
        (exists_says_iff fun _ => Condition.exists_readFrom_iff).2 hwritten
      exact ⟨⟨operations, condition⟩, record, Or.inr rfl, hread, hwritten⟩

/-- The two passes over actions. -/
theorem eachReadFrom_iff {actions : List (String × Action)} :
    EachReadFrom storyline entries actions ↔
      ∃ records, eachEntry EventRecord.readAction entries = .ok records ∧
        Event.assembleActions storyline records = .ok actions := by
  induction entries generalizing actions with
  | nil =>
    constructor
    · intro h
      cases h
      exact ⟨[], rfl, rfl⟩
    · rintro ⟨records, hrecords, hactions⟩
      obtain rfl := Except.ok.inj hrecords
      exact Except.ok.inj hactions ▸ .nil
  | cons entry rest ih =>
    obtain ⟨name, document⟩ := entry
    constructor
    · intro h
      obtain ⟨⟨given, a⟩, others, ⟨hname, ha⟩, hothers, rfl⟩ := List.forall₂_cons_left_iff.1 h
      obtain rfl : given = name := hname
      obtain ⟨record, hrecord, hmade⟩ := (readFrom_iff given).1 ha
      obtain ⟨records, hrecords, hactions⟩ := ih.1 hothers
      refine ⟨(given, record) :: records, ?_, ?_⟩
      · rw [eachEntry, hrecord, hrecords]
        rfl
      · rw [Event.assembleActions, hmade, hactions]
        rfl
    · rintro ⟨records, hrecords, hactions⟩
      rw [eachEntry] at hrecords
      split at hrecords
      · cases hrecords
      rename_i record hrecord
      obtain ⟨others, hothers, rfl⟩ := Except.exists_of_map hrecords
      rw [Event.assembleActions] at hactions
      split at hactions
      · cases hactions
      rename_i a ha
      obtain ⟨made, hmade, rfl⟩ := Except.exists_of_map hactions
      exact .cons ⟨rfl, (readFrom_iff name).2 ⟨record, hrecord, ha⟩⟩ (ih.2 ⟨others, hothers, hmade⟩)

theorem exists_eachReadFrom_iff : (∃ actions, EachReadFrom storyline entries actions) ↔
    ∀ entry ∈ entries, entry.2.IsAction storyline := by
  have heach : ∀ entry : String × Json, (∃ named : String × Action,
      named.1 = entry.1 ∧ ReadFrom storyline entry.2 named.2) ↔ entry.2.IsAction storyline := by
    intro entry
    rw [← exists_readFrom_iff]
    exact ⟨fun ⟨named, _, ha⟩ => ⟨named.2, ha⟩, fun ⟨a, ha⟩ => ⟨(entry.1, a), rfl, ha⟩⟩
  simp only [← heach]
  exact exists_forall₂_iff

theorem exists_allReadFrom_iff :
    (∃ actions, AllReadFrom storyline document actions) ↔ document.IsActions storyline := by
  unfold AllReadFrom Json.IsActions
  rw [exists_comm]
  simp only [exists_and_left, exists_eachReadFrom_iff]

/-- The two passes over a field of actions. -/
theorem says_iff {field : Option Json} {actions : List (String × Action)} :
    Says field (AllReadFrom storyline) [] actions ↔
      ∃ entries, Says field (fun value entries => value = .obj entries) [] entries ∧
        ∃ records, eachEntry EventRecord.readAction entries = .ok records ∧
          Event.assembleActions storyline records = .ok actions := by
  simp only [← eachReadFrom_iff]
  exact (says_comp_iff _ List.forall₂_nil_left_iff).symm

end Action

end Narrative
