import Mathlib.Tactic.Common
import Narrative.State.Basic
import Narrative.Proofs.Entries

/-!
# Documents up to the order of entries

Two documents are equal up to the order of the entries in their objects, at any depth.
-/

namespace Narrative.Json

mutual

/-- The same document, but for the order of the entries in its objects. -/
inductive Reordered : Json → Json → Prop
  | same (document : Json) : Reordered document document
  | arr {items others : List Json} (each : ReorderedItems items others) :
    Reordered (.arr items) (.arr others)
  | obj {entries moved others : List (String × Json)} (order : entries.Perm moved)
    (each : ReorderedEntries moved others) : Reordered (.obj entries) (.obj others)

/-- `Reordered` item by item. -/
inductive ReorderedItems : List Json → List Json → Prop
  | nil : ReorderedItems [] []
  | cons {item other : Json} {items others : List Json} (first : Reordered item other)
    (rest : ReorderedItems items others) : ReorderedItems (item :: items) (other :: others)

/-- `Reordered` entry by entry, under the same names. -/
inductive ReorderedEntries : List (String × Json) → List (String × Json) → Prop
  | nil : ReorderedEntries [] []
  | cons {name : String} {value other : Json} {entries others : List (String × Json)}
    (first : Reordered value other) (rest : ReorderedEntries entries others) :
    ReorderedEntries ((name, value) :: entries) ((name, other) :: others)

end

theorem ReorderedItems.refl (items : List Json) : ReorderedItems items items := by
  induction items with
  | nil => exact .nil
  | cons item rest ih => exact .cons (.same item) ih

theorem ReorderedEntries.refl (entries : List (String × Json)) :
    ReorderedEntries entries entries := by
  induction entries with
  | nil => exact .nil
  | cons entry rest ih => exact .cons (.same entry.2) ih

/-- Objects with the same entries in another order. -/
theorem Reordered.of_perm {entries others : List (String × Json)} (h : entries.Perm others) :
    Reordered (.obj entries) (.obj others) :=
  .obj h (.refl others)

/-! ### One value in a level -/

variable {value other : Json}

theorem ReorderedItems.set (h : value.Reordered other) (items : List Json) (i : Nat) :
    ReorderedItems (items.set i value) (items.set i other) := by
  induction items generalizing i with
  | nil => exact .nil
  | cons item rest ih =>
    cases i with
    | zero => exact .cons h (.refl rest)
    | succ i => exact .cons (.same item) (ih i)

theorem ReorderedEntries.put (h : value.Reordered other) (name : String)
    (entries : List (String × Json)) :
    ReorderedEntries (Entries.put name value entries) (Entries.put name other entries) := by
  induction entries with
  | nil => exact .cons h .nil
  | cons entry rest ih =>
    obtain ⟨first, old⟩ := entry
    rw [Entries.put, Entries.put]
    by_cases hname : first = name
    · rw [if_pos hname, if_pos hname]
      exact .cons h (.refl rest)
    · rw [if_neg hname, if_neg hname]
      exact .cons (.same old) ih

/-- A level with one of two values in it that are equal up to order. -/
theorem Reordered.replaceChild (h : value.Reordered other) (level : Json) (key : String) :
    (level.replaceChild key value).Reordered (level.replaceChild key other) := by
  cases level with
  | obj entries => exact .obj (List.Perm.refl _) (.put h key entries)
  | arr items =>
    rw [Json.replaceChild, Json.replaceChild]
    cases index? key with
    | none => exact .same _
    | some i => exact .arr (.set h items i)
  | _ => exact .same _

end Narrative.Json
