import Mathlib.Tactic.Common
import Narrative.Json.Equality
import Narrative.Proofs.Decimal.Finite
import Narrative.Proofs.Entries
import Narrative.Proofs.Json.Document

/-!
# Strict equality

A document is the same as itself, as long as its numbers are finite and its objects repeat no name.
-/

namespace Narrative

namespace Decimal

open Float.Model

/-- A finite float equals itself. -/
theorem beq_self_of_isFinite {x : Float} (h : x.isFinite = true) : (x == x) = true := by
  show (x.toModel.unpack.compare x.toModel.unpack == some Ordering.eq) = true
  have hfinite : x.toModel.unpack.isFinite = true := h
  cases hunpack : x.toModel.unpack with
  | zero _ => rfl
  | finite s m e hm => cases s <;> simp [UnpackedFloat.compare]
  | infinity _ =>
    rw [hunpack] at hfinite
    cases hfinite
  | notANumber =>
    rw [hunpack] at hfinite
    cases hfinite

end Decimal

namespace Json

mutual

theorem same_self : {document : Json} → document.Proper → document.same document = true
  | .null, _ => rfl
  | .bool _, _ => by rw [same, beq_self_eq_true]
  | .num _, .int range => by
    rw [same]
    exact Decimal.beq_self_of_isFinite (Decimal.isFinite_ofInt range)
  | .num _, .float finite => by
    rw [same]
    exact Decimal.beq_self_of_isFinite finite
  | .str _, _ => by rw [same, beq_self_eq_true]
  | .arr _, h => by
    rw [same]
    exact sameItems_self h.items
  | .obj entries, h => by
    rw [same, beq_self_eq_true, Bool.true_and]
    exact sameEntries_of_lookup h.values fun _ hentry => Entries.lookup_of_mem h.names hentry

theorem sameItems_self : {items : List Json} → (∀ item ∈ items, item.Proper) →
    sameItems items items = true
  | [], _ => rfl
  | item :: rest, h => by
    rw [sameItems, same_self (h item List.mem_cons_self),
      sameItems_self fun other hother => h other (List.mem_cons_of_mem _ hother)]
    rfl

/-- Entries are the same among others that hold each of them. -/
theorem sameEntries_of_lookup : {entries others : List (String × Json)} →
    (∀ entry ∈ entries, Proper entry.2) →
    (∀ entry ∈ entries, others.lookup entry.1 = some entry.2) → sameEntries entries others = true
  | [], _, _, _ => rfl
  | (name, value) :: rest, others, hproper, hlookup => by
    have hfirst := hlookup (name, value) List.mem_cons_self
    have hself := same_self (hproper (name, value) List.mem_cons_self)
    have hrest := sameEntries_of_lookup
      (fun entry hentry => hproper entry (List.mem_cons_of_mem _ hentry))
      fun entry hentry => hlookup entry (List.mem_cons_of_mem _ hentry)
    rw [sameEntries, hfirst, hrest, Bool.and_true]
    exact hself

end

end Json

end Narrative
