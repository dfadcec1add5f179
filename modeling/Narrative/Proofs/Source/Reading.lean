import Mathlib.Tactic.Common
import Narrative.Source.Operand
import Narrative.Proofs.Except

/-!
# How operands are read

`Reads` says by which of its readers a trimmed token is read as an operand.  Whatever `Operand.read`
makes of a token is so read, and what holds of all operands that are read follows by induction on
`Reads`.
-/

namespace Narrative

namespace Source

theorem length_lt_extent {text : List Char} {texts : List (List Char)} (h : text ∈ texts) :
    text.length < extent texts := by
  induction texts with
  | nil => exact absurd h List.not_mem_nil
  | cons other rest ih =>
    simp only [extent] at ih ⊢
    rcases List.mem_cons.1 h with rfl | h
    · omega
    · have := ih h
      omega

theorem length_lt_of_mem_items {token inner text : List Char} (h : inside? token = some inner)
    (htext : text ∈ items Scan.start inner) : text.length < token.length := by
  have hinside := length_inside h
  have hextent := length_lt_extent htext
  rw [extent_items] at hextent
  omega

end Source

namespace Operand

open Source

mutual

/-- How a trimmed token is read as an operand, in a storyline or in none. -/
inductive Reads (storyline : Option String) : List Char → Operand → Prop
  | null {token : List Char} (word : nullWords.contains (String.ofList token) = true) :
    Reads storyline token .null
  | bool {token : List Char} {b : Bool} (word : boolean? (String.ofList token) = some b) :
    Reads storyline token (.bool b)
  | number {token : List Char} {x : Float} (numeral : numeral? token = some x) :
    Reads storyline token (.number x)
  | text {token s : List Char} {mark : Char} (quote : mark = '"' ∨ mark = '\'')
    (head : token.head? = some mark) (string : string? mark token = some s) :
    Reads storyline token (.text (String.ofList s))
  | empty {token : List Char} (inside : inside? token = some []) : Reads storyline token (.list [])
  | list {token inner : List Char} {operands : List Operand} (filled : inner ≠ [])
    (inside : inside? token = some inner)
    (each : ReadsEach storyline (items Scan.start inner) operands) :
    Reads storyline token (.list operands)
  | access {token : List Char} {path : Access}
    (segments : Source.access? storyline token = some (.ok path)) :
    Reads storyline token (.access path)

/-- `Reads` item by item; no item is blank. -/
inductive ReadsEach (storyline : Option String) : List (List Char) → List Operand → Prop
  | nil : ReadsEach storyline [] []
  | cons {item : List Char} {rest : List (List Char)} {operand : Operand} {operands : List Operand}
    (filled : Text.trim item ≠ []) (first : Reads storyline (Text.trim item) operand)
    (others : ReadsEach storyline rest operands) :
    ReadsEach storyline (item :: rest) (operand :: operands)

end

theorem readsEach_of_readItems {storyline : Option String} {word : String}
    {texts : List (List Char)} {operands : List Operand}
    (each : ∀ text ∈ texts, ∀ {operand : Operand}, read storyline text = .ok operand →
      Reads storyline (Text.trim text) operand)
    (h : readItems storyline word texts = .ok operands) : ReadsEach storyline texts operands := by
  induction texts generalizing operands with
  | nil =>
    rw [readItems] at h
    obtain rfl := Except.ok.inj h
    exact .nil
  | cons text rest ih =>
    rw [readItems] at h
    split at h
    · exact absurd h (by simp)
    rename_i hfilled
    split at h
    · exact absurd h (by simp)
    rename_i hfirst
    obtain ⟨others, hothers, rfl⟩ := Except.exists_of_map h
    have hblank : Text.trim text ≠ [] := fun hnil => hfilled (by rw [hnil]; rfl)
    exact .cons hblank (each text List.mem_cons_self hfirst)
      (ih (fun other hother => each other (List.mem_cons_of_mem _ hother)) hothers)

/-- A token is read by one of the readers; the items of an array are shorter than it. -/
theorem reads_of_read {storyline : Option String} {token : List Char} {operand : Operand}
    (h : read storyline token = .ok operand) : Reads storyline (Text.trim token) operand := by
  induction hlength : token.length using Nat.strongRecOn generalizing token operand with
  | ind n ih =>
    rw [read] at h
    split at h
    · obtain rfl := Except.ok.inj h
      exact .null ‹_›
    split at h
    · obtain rfl := Except.ok.inj h
      exact .bool ‹_›
    split at h
    · obtain rfl := Except.ok.inj h
      exact .number ‹_›
    split at h
    · split at h
      · obtain rfl := Except.ok.inj h
        exact .text (Or.inl rfl) ‹_› ‹_›
      · exact absurd h (by simp)
    · split at h
      · obtain rfl := Except.ok.inj h
        exact .text (Or.inr rfl) ‹_› ‹_›
      · exact absurd h (by simp)
    split at h
    · obtain rfl := Except.ok.inj h
      exact .empty ‹_›
    · rename_i c inner hinside
      obtain ⟨operands, hitems, rfl⟩ := Except.exists_of_map h
      refine .list (List.cons_ne_nil _ _) hinside (readsEach_of_readItems ?_ hitems)
      intro text htext operand htoken
      have hshort := length_lt_of_mem_items hinside htext
      have htrim := Text.length_trim_le token
      exact ih text.length (by omega) htoken rfl
    · split at h
      · obtain rfl := Except.ok.inj h
        exact .access ‹_›
      · exact absurd h (by simp)
      · exact absurd h (by simp)

end Operand

end Narrative
