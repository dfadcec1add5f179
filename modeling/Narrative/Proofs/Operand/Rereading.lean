import Mathlib.Tactic.Common
import Narrative.Operand.Coding
import Narrative.Proofs.Entries
import Narrative.Proofs.Json.Document

/-!
# Operands that are read again

What the document of an operand decodes to is the operand itself, but for lists that are spelled
like an access: the word `state` and a list of texts.  `Operand.reread` puts the access in the place
of such a list, and nothing else is changed by writing an operand and reading it again.
-/

namespace Narrative

/-! ### Records and lists -/

theorem map_eq_self_iff {α : Type} {f : α → α} {l : List α} : l.map f = l ↔ ∀ x ∈ l, f x = x := by
  have h : l.map f = l.map id ↔ ∀ x ∈ l, f x = id x := List.map_inj_left
  rwa [List.map_id] at h

theorem Entries.mapValues_eq_self_iff {α : Type} {f : α → α} {entries : List (String × α)} :
    Entries.mapValues f entries = entries ↔ ∀ entry ∈ entries, f entry.2 = entry.2 := by
  rw [Entries.mapValues, map_eq_self_iff]
  simp [Prod.ext_iff]

namespace Json

mutual

/-- What no reader can tell from a mapping stays as it is. -/
theorem normal_eq_self : (document : Json) → document.Proper → document.normal = document
  | .null, _ | .bool _, _ | .num _, _ | .str _, _ => by simp [normal]
  | .arr items, h => by rw [normal, normalItems_eq_self items h.items]
  | .obj entries, h => by
    rw [normal, normalEntries_eq_self entries h.values, Entries.distinct_eq_self h.names]

theorem normalItems_eq_self : (items : List Json) → (∀ item ∈ items, Proper item) →
    normalItems items = items
  | [], _ => rfl
  | item :: rest, h => by
    rw [normalItems, normal_eq_self item (h item (by simp)),
      normalItems_eq_self rest fun other hother => h other (by simp [hother])]

theorem normalEntries_eq_self : (entries : List (String × Json)) →
    (∀ entry ∈ entries, Proper entry.2) → normalEntries entries = entries
  | [], _ => rfl
  | (name, value) :: rest, h => by
    rw [normalEntries, normal_eq_self value (h (name, value) (by simp)),
      normalEntries_eq_self rest fun other hother => h other (by simp [hother])]

end

theorem mapM_map_of_eq_some {α β : Type} {encode : α → Json} {decode : Json → Option β} {f : α → β}
    {l : List α} (h : ∀ x ∈ l, decode (encode x) = some (f x)) :
    (l.map encode).mapM decode = some (l.map f) := by
  induction l with
  | nil => rfl
  | cons x l ih =>
    rw [List.map_cons, List.mapM_cons, h x (by simp), ih fun y hy => h y (by simp [hy])]
    rfl

theorem list?_arr_map {α β : Type} {encode : α → Json} {decode : Json → Option β} {f : α → β}
    {l : List α} (h : ∀ x ∈ l, decode (encode x) = some (f x)) :
    list? decode (.arr (l.map encode)) = some (l.map f) :=
  mapM_map_of_eq_some h

/-- A mapping is decoded value by value. -/
theorem entriesOf?_mapValues {α β : Type} {encode : α → Json} {decode : Json → Option β} {f : α → β}
    {entries : List (String × α)} (once : (Entries.names entries).Nodup)
    (h : ∀ entry ∈ entries, decode (encode entry.2) = some (f entry.2)) :
    entriesOf? decode (.obj (Entries.mapValues encode entries)) =
      some (Entries.mapValues f entries) := by
  have hvalues : (Entries.mapValues encode entries).mapM
      (fun entry => (decode entry.2).map fun value => (entry.1, value)) =
      some (Entries.mapValues f entries) := by
    clear once
    induction entries with
    | nil => rfl
    | cons entry rest ih =>
      simp only [Entries.mapValues, List.map_cons, List.mapM_cons] at ih ⊢
      rw [h entry (by simp), ih fun other hother => h other (by simp [hother])]
      rfl
  rw [entriesOf?, hvalues, Option.map_some,
    Entries.distinct_eq_self (by rwa [Entries.names_mapValues])]

end Json

/-! ### Operands -/

namespace Access

theorem ofJson?_toJson (a : Access) : ofJson? a.toJson = some a := by
  have hdata : Json.list? Json.text? (.arr (a.segments.map .str)) = some (a.segments.map id) :=
    Json.list?_arr_map fun _ _ => rfl
  rw [List.map_id] at hdata
  simp [ofJson?, toJson, shape, Json.fields?, Json.fieldsNamed?, Json.Shape.ofNames,
    Json.Shape.names, Json.single?, Json.word?, hdata]

end Access

namespace Operand

/-- The characters of a text. -/
def text? : Operand → Option String
  | text s => some s
  | _ => none

/-- The path that the items of a list spell when they are the word `state` and a list of texts. -/
def spelled? : List Operand → Option Access
  | [text kind, list segments] =>
    if kind = "state" then (segments.mapM text?).map Access.mk else none
  | _ => none

mutual

/-- The operand that is read from what the operand is written as. -/
def reread : Operand → Operand
  | list items =>
    match spelled? items with
    | some path => access path
    | none => list (rereadItems items)
  | access path => access path
  | null => null
  | bool b => bool b
  | number x => number x
  | text s => text s

/-- `reread` on each item. -/
def rereadItems : List Operand → List Operand
  | [] => []
  | item :: rest => reread item :: rereadItems rest

end

mutual

/-- Whether a list in the operand is spelled like an access. -/
def Misleading : Operand → Prop
  | list items => (spelled? items).isSome ∨ MisleadingItems items
  | _ => False

/-- `Misleading` for some item. -/
def MisleadingItems : List Operand → Prop
  | [] => False
  | item :: rest => Misleading item ∨ MisleadingItems rest

end

mutual

theorem reread_eq_self_iff : (operand : Operand) → (operand.reread = operand ↔ ¬operand.Misleading)
  | .access _ | .null | .bool _ | .number _ | .text _ => by simp [reread, Misleading]
  | .list items => by
    rw [reread, Misleading]
    cases spelled? items with
    | some path => simp
    | none => simp [rereadItems_eq_self_iff items]

theorem rereadItems_eq_self_iff :
    (items : List Operand) → (rereadItems items = items ↔ ¬MisleadingItems items)
  | [] => by simp [rereadItems, MisleadingItems]
  | item :: rest => by
    simp [rereadItems, MisleadingItems, reread_eq_self_iff item, rereadItems_eq_self_iff rest]

end

theorem itemsToJson_eq_map (items : List Operand) : itemsToJson items = items.map toJson := by
  induction items with
  | nil => rfl
  | cons item rest ih => rw [itemsToJson, ih, List.map_cons]

theorem text?_toJson (operand : Operand) : operand.toJson.text? = operand.text? := by
  cases operand <;> rfl

/-- Only the word itself is written as a word. -/
theorem word?_toJson (operand : Operand) : operand.toJson.word? = operand.text? := by
  cases operand <;> rfl

theorem texts_itemsToJson (items : List Operand) :
    (itemsToJson items).mapM Json.text? = items.mapM text? := by
  rw [itemsToJson_eq_map, List.mapM_map]
  congr 1
  funext operand
  exact text?_toJson operand

/-- An array is read as an access only where its items spell one. -/
theorem access_itemsToJson (items : List Operand) :
    Access.ofJson? (.arr (itemsToJson items)) = spelled? items := by
  match items with
  | [] => rfl
  | [kind] => cases kind <;> rfl
  | [kind, data] =>
    have hfields : Access.ofJson? (.arr (itemsToJson [kind, data])) =
        kind.toJson.word?.bind fun word =>
          if word = "state" then (data.toJson.list? Json.text?).map Access.mk else none := by
      cases hkind : kind.toJson.word? with
      | none =>
        simp [Access.ofJson?, Access.shape, Json.fields?, Json.fieldsNamed?, Json.Shape.ofNames,
          Json.Shape.names, itemsToJson, hkind]
      | some word =>
        cases hdata : data.toJson.list? Json.text? <;>
          simp [Access.ofJson?, Access.shape, Json.fields?, Json.fieldsNamed?, Json.Shape.ofNames,
            Json.Shape.names, itemsToJson, hkind, hdata]
    rw [hfields, word?_toJson]
    cases kind with
    | text word =>
      cases data with
      | list segments => simp [text?, spelled?, toJson, Json.list?, texts_itemsToJson]
      | _ => simp [text?, spelled?, toJson, Access.toJson, Json.list?]
    | _ => simp [text?, spelled?]
  | _ :: _ :: _ :: _ =>
    simp [Access.ofJson?, Access.shape, Json.fields?, Json.fieldsNamed?, Json.Shape.ofNames,
      Json.Shape.names, itemsToJson, spelled?]

mutual

theorem ofJson?_toJson : (operand : Operand) → ofJson? operand.toJson = some operand.reread
  | .null | .bool _ | .number _ | .text _ => by simp [toJson, ofJson?, reread, Number.toFloat]
  | .access path => by
    have hpath := Access.ofJson?_toJson path
    rw [Access.toJson] at hpath
    rw [toJson, Access.toJson, ofJson?, hpath, Option.map_some, reread]
  | .list items => by
    rw [toJson, ofJson?, access_itemsToJson, reread]
    cases spelled? items with
    | some path => rfl
    | none => simp [itemsOfJson?_itemsToJson items]

theorem itemsOfJson?_itemsToJson :
    (items : List Operand) → itemsOfJson? (itemsToJson items) = some (rereadItems items)
  | [] => rfl
  | item :: rest => by
    simp [itemsToJson, itemsOfJson?, ofJson?_toJson item, itemsOfJson?_itemsToJson rest,
      rereadItems]

end

end Operand

end Narrative
