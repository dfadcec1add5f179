import Mathlib.Tactic.Common
import Narrative.Json.Reader
import Narrative.Proofs.Json.Scalar

/-!
# Documents that are read back

A document that a reader can make is read back from its compact text when its floats are, when the
shape of the reader asks for all of it, and when not too many containers stand inside each other.
-/

namespace Narrative

namespace Json

open Decimal

/-! ### Measures of a document -/

mutual

/-- The floats in a document. -/
def floats : Json → List Float
  | num (.float x) => [x]
  | arr items => floatsOfItems items
  | obj entries => floatsOfEntries entries
  | _ => []

/-- `floats` of all items. -/
def floatsOfItems : List Json → List Float
  | [] => []
  | item :: rest => floats item ++ floatsOfItems rest

/-- `floats` of all values. -/
def floatsOfEntries : List (String × Json) → List Float
  | [] => []
  | (_, value) :: rest => floats value ++ floatsOfEntries rest

end

mutual

/-- How many containers stand inside each other. -/
def depth : Json → Nat
  | arr items => depthOfItems items + 1
  | obj entries => depthOfEntries entries + 1
  | _ => 0

/-- The greatest `depth` of the items. -/
def depthOfItems : List Json → Nat
  | [] => 0
  | item :: rest => max (depth item) (depthOfItems rest)

/-- The greatest `depth` of the values. -/
def depthOfEntries : List (String × Json) → Nat
  | [] => 0
  | (_, value) :: rest => max (depth value) (depthOfEntries rest)

end

mutual

/-- Whether a shape asks for all of a document. -/
def Asked (shape : Shape) : Json → Prop
  | arr items => AskedItems shape 0 items
  | obj entries => AskedEntries shape entries
  | _ => True

/-- `Asked` for the items from the one with the given number on. -/
def AskedItems (shape : Shape) (number : Nat) : List Json → Prop
  | [] => True
  | item :: rest => Asked (shape.item number) item ∧ AskedItems shape (number + 1) rest

/-- `Asked` for the values of the entries, each of which must be asked for. -/
def AskedEntries (shape : Shape) : List (String × Json) → Prop
  | [] => True
  | (name, value) :: rest =>
    (∃ part, shape.entry? name = some part ∧ Asked part value) ∧ AskedEntries shape rest

end

/-- A document that a reader can make: integers lie in their range, floats are finite, and no object
repeats a name. -/
inductive Proper : Json → Prop
  | null : Proper null
  | bool (b : Bool) : Proper (bool b)
  | int {n : Int} (range : IntegerRange n) : Proper (num (.int n))
  | float {x : Float} (finite : x.isFinite = true) : Proper (num (.float x))
  | str (s : String) : Proper (str s)
  | arr {items : List Json} (each : ∀ item ∈ items, Proper item) : Proper (arr items)
  | obj {entries : List (String × Json)} (once : (Entries.names entries).Nodup)
      (each : ∀ entry ∈ entries, Proper entry.2) : Proper (obj entries)

theorem Proper.items {items : List Json} (h : Proper (.arr items)) :
    ∀ item ∈ items, Proper item := by
  cases h with
  | arr each => exact each

theorem Proper.names {entries : List (String × Json)} (h : Proper (.obj entries)) :
    (Entries.names entries).Nodup := by
  cases h with
  | obj once each => exact once

theorem Proper.values {entries : List (String × Json)} (h : Proper (.obj entries)) :
    ∀ entry ∈ entries, Proper entry.2 := by
  cases h with
  | obj once each => exact each

mutual

theorem Proper.isFinite : {document : Json} → document.Proper →
    ∀ x ∈ document.floats, x.isFinite = true
  | .null, _ | .bool _, _ | .str _, _ | .num (.int _), _ => fun _ hx => absurd hx List.not_mem_nil
  | .num (.float _), h => fun _ hx => by
    cases h with
    | float finite => exact List.mem_singleton.1 hx ▸ finite
  | .arr _, h => Proper.isFinite_items h.items
  | .obj _, h => Proper.isFinite_entries h.values

theorem Proper.isFinite_items : {items : List Json} → (∀ item ∈ items, Proper item) →
    ∀ x ∈ floatsOfItems items, x.isFinite = true
  | [], _ => fun _ hx => absurd hx List.not_mem_nil
  | item :: _, h => fun x hx => (List.mem_append.1 hx).elim
    ((h item List.mem_cons_self).isFinite x)
    (Proper.isFinite_items (fun other hother => h other (List.mem_cons_of_mem _ hother)) x)

theorem Proper.isFinite_entries : {entries : List (String × Json)} →
    (∀ entry ∈ entries, Proper entry.2) → ∀ x ∈ floatsOfEntries entries, x.isFinite = true
  | [], _ => fun _ hx => absurd hx List.not_mem_nil
  | (name, value) :: _, h => fun x hx => (List.mem_append.1 hx).elim
    ((h (name, value) List.mem_cons_self).isFinite x)
    (Proper.isFinite_entries (fun other hother => h other (List.mem_cons_of_mem _ hother)) x)

end

/-! ### Numbers -/

theorem head_of_readSigned {text rest : List Char} {n : Number}
    (h : Json.readSigned text = some (n, rest)) :
    ∃ c cs, text = c :: cs ∧ (c = '-' ∨ isDigit c = true) := by
  cases text with
  | nil => exact absurd h (by simp [Json.readSigned, readNumber])
  | cons c cs =>
    refine ⟨c, cs, rfl, ?_⟩
    by_cases hminus : c = '-'
    · exact Or.inl hminus
    · refine Or.inr ?_
      unfold Json.readSigned at h
      split at h
      · rename_i heq
        exact absurd (List.cons.inj heq).1 hminus
      · by_contra hdigit
        rw [readNumber_eq] at h
        exact absurd h (by simp [hdigit])

theorem not_space_of_head {c : Char} (h : c = '-' ∨ isDigit c = true) : isSpace c = false :=
  not_space_of_isNumberChar (by rcases h with rfl | h <;> simp [isNumberChar, *])

/-- Where a number stands, a number is read. -/
theorem readValue_number {fuel depth : Nat} {shape : Shape} {text rest : List Char} {n : Number}
    (h : Json.readSigned text = some (n, rest)) :
    readValue (fuel + 1) depth shape text = some (.num n, rest) := by
  obtain ⟨c, cs, rfl, hc⟩ := head_of_readSigned h
  have hne : ∀ d, d ≠ '-' → isDigit d = false → c ≠ d := by
    rintro d hd hdigit rfl
    rcases hc with hc | hc
    · exact hd hc
    · exact absurd (hdigit.symm.trans hc) (by simp)
  unfold readValue
  rw [skipSpace_cons (not_space_of_head hc)]
  split
  · rename_i heq
    exact absurd (List.cons.inj heq).1 (hne _ (by decide) (by decide))
  · rename_i heq
    exact absurd (List.cons.inj heq).1 (hne _ (by decide) (by decide))
  · rename_i heq
    exact absurd (List.cons.inj heq).1 (hne _ (by decide) (by decide))
  · rename_i heq
    exact absurd (List.cons.inj heq).1 (hne _ (by decide) (by decide))
  · rename_i heq
    exact absurd (List.cons.inj heq).1 (hne _ (by decide) (by decide))
  · rename_i heq
    exact absurd (List.cons.inj heq).1 (hne _ (by decide) (by decide))
  · rename_i heq
    rw [heq] at h
    simp [show readNumber true _ = some (n, rest) from h]
  · rename_i hminus
    unfold Json.readSigned at h
    split at h
    · rename_i body heq
      exact absurd heq (hminus body)
    · simp [h]

/-! ### Legible documents -/

/-- A document that can be read back from its text where a shape is asked for and so many containers
may still open. -/
structure Legible (shape : Shape) (depth : Nat) (document : Json) : Prop where
  proper : document.Proper
  floats : ∀ x ∈ document.floats, ReadsBack x
  asked : Asked shape document
  depth : document.depth ≤ depth

/-- The items of a legible array, from the one with the given number on. -/
structure LegibleItems (shape : Shape) (depth number : Nat) (items : List Json) : Prop where
  proper : ∀ item ∈ items, Proper item
  floats : ∀ x ∈ floatsOfItems items, ReadsBack x
  asked : AskedItems shape number items
  depth : depthOfItems items ≤ depth

/-- The entries of a legible object. -/
structure LegibleEntries (shape : Shape) (depth : Nat) (entries : List (String × Json)) : Prop where
  proper : ∀ entry ∈ entries, Proper entry.2
  floats : ∀ x ∈ floatsOfEntries entries, ReadsBack x
  asked : AskedEntries shape entries
  depth : depthOfEntries entries ≤ depth

theorem exists_succ {n m : Nat} (h : n + 1 ≤ m) : ∃ k, m = k + 1 ∧ n ≤ k :=
  ⟨m - 1, by omega, by omega⟩

theorem Legible.items {shape : Shape} {depth : Nat} {items : List Json}
    (h : Legible shape depth (arr items)) :
    ∃ inner, depth = inner + 1 ∧ LegibleItems shape inner 0 items := by
  obtain ⟨hproper, hf, hask, hdepth⟩ := h
  obtain ⟨inner, rfl, hinner⟩ := exists_succ (show depthOfItems items + 1 ≤ depth from hdepth)
  exact ⟨inner, rfl, hproper.items, hf, hask, hinner⟩

theorem Legible.entries {shape : Shape} {depth : Nat} {entries : List (String × Json)}
    (h : Legible shape depth (obj entries)) :
    ∃ inner, depth = inner + 1 ∧ LegibleEntries shape inner entries := by
  obtain ⟨hproper, hf, hask, hdepth⟩ := h
  obtain ⟨inner, rfl, hinner⟩ := exists_succ (show depthOfEntries entries + 1 ≤ depth from hdepth)
  exact ⟨inner, rfl, hproper.values, hf, hask, hinner⟩

theorem LegibleItems.head {shape : Shape} {depth number : Nat} {item : Json} {items : List Json}
    (h : LegibleItems shape depth number (item :: items)) :
    Legible (shape.item number) depth item where
  proper := h.proper item (by simp)
  floats x hx := h.floats x (by rw [floatsOfItems]; exact List.mem_append_left _ hx)
  asked := h.asked.1
  depth := Nat.le_trans (Nat.le_max_left _ _) h.depth

theorem LegibleItems.tail {shape : Shape} {depth number : Nat} {item : Json} {items : List Json}
    (h : LegibleItems shape depth number (item :: items)) :
    LegibleItems shape depth (number + 1) items where
  proper other hother := h.proper other (by simp [hother])
  floats x hx := h.floats x (by rw [floatsOfItems]; exact List.mem_append_right _ hx)
  asked := h.asked.2
  depth := Nat.le_trans (Nat.le_max_right _ _) h.depth

theorem LegibleEntries.head {shape : Shape} {depth : Nat} {name : String} {value : Json}
    {entries : List (String × Json)} (h : LegibleEntries shape depth ((name, value) :: entries)) :
    ∃ part, shape.entry? name = some part ∧ Legible part depth value := by
  obtain ⟨⟨part, hpart, hvalue⟩, -⟩ := h.asked
  refine ⟨part, hpart, h.proper (name, value) (by simp), fun x hx => h.floats x ?_, hvalue,
    Nat.le_trans (Nat.le_max_left _ _) h.depth⟩
  rw [floatsOfEntries]
  exact List.mem_append_left _ hx

theorem LegibleEntries.tail {shape : Shape} {depth : Nat} {entry : String × Json}
    {entries : List (String × Json)} (h : LegibleEntries shape depth (entry :: entries)) :
    LegibleEntries shape depth entries where
  proper other hother := h.proper other (by simp [hother])
  floats x hx := h.floats x (by rw [floatsOfEntries]; exact List.mem_append_right _ hx)
  asked := h.asked.2
  depth := Nat.le_trans (Nat.le_max_right _ _) h.depth

/-! ### What a written document starts with -/

theorem readSigned_writeNumber {n : Number} (h : (num n).Proper)
    (hf : ∀ x ∈ (num n).floats, ReadsBack x) {rest : List Char} (hrest : Delimited rest) :
    Json.readSigned (writeNumber n ++ rest) = some (n, rest) := by
  cases h with
  | int range => exact readSigned_integer range hrest
  | float finite => exact (hf _ (by simp [floats])).readSigned hrest

/-- What a written document starts with: no white space, and no bracket that closes. -/
theorem Legible.exists_write_eq_cons {shape : Shape} {depth : Nat} {document : Json}
    (h : Legible shape depth document) :
    ∃ c cs, document.write = c :: cs ∧ isSpace c = false ∧ c ≠ ']' := by
  cases document with
  | null => exact ⟨_, _, by rw [write], by decide, by decide⟩
  | bool b => cases b <;> exact ⟨_, _, by rw [write], by decide, by decide⟩
  | num n =>
    have hread : Json.readSigned (writeNumber n ++ []) = some (n, []) :=
      readSigned_writeNumber h.proper h.floats fun c hc => absurd hc (by simp)
    rw [List.append_nil] at hread
    obtain ⟨c, cs, hcs, hc⟩ := head_of_readSigned hread
    refine ⟨c, cs, by rw [write, hcs], not_space_of_head hc, ?_⟩
    rintro rfl
    exact absurd hc (by decide)
  | str s => exact ⟨_, _, by rw [write, writeString], by decide, by decide⟩
  | arr items => cases items <;> exact ⟨_, _, by rw [write], by decide, by decide⟩
  | obj entries =>
    rcases entries with _ | ⟨⟨name, value⟩, rest⟩ <;>
      exact ⟨_, _, by rw [write], by decide, by decide⟩

/-! ### Documents -/

theorem delimited_cons {c : Char} {rest : List Char}
    (h : isDigit c = false ∧ c ≠ '.' ∧ c ≠ 'e' ∧ c ≠ 'E') : Delimited (c :: rest) := by
  intro d hd
  obtain rfl : c = d := by simpa using hd
  exact h

theorem delimited_writeItems (items : List Json) (rest : List Char) :
    Delimited (writeItems items ++ rest) := by
  cases items <;> rw [writeItems] <;> exact delimited_cons (by decide)

theorem delimited_writeEntries (entries : List (String × Json)) (rest : List Char) :
    Delimited (writeEntries entries ++ rest) := by
  rcases entries with _ | ⟨⟨name, value⟩, more⟩ <;> rw [writeEntries] <;>
    exact delimited_cons (by decide)

theorem length_writeItems_pos (items : List Json) : 0 < (writeItems items).length := by
  cases items <;> simp [writeItems]

theorem length_writeEntries_pos (entries : List (String × Json)) :
    0 < (writeEntries entries).length := by
  rcases entries with _ | ⟨⟨name, value⟩, more⟩ <;> simp [writeEntries]

theorem readValue_open_arr {fuel depth : Nat} {shape : Shape} {c : Char} {text : List Char}
    (hspace : isSpace c = false) (hclose : c ≠ ']') :
    readValue (fuel + 1) (depth + 1) shape ('[' :: c :: text) =
      (readItems fuel depth shape 0 (c :: text)).map fun parts => (arr parts.1, parts.2) := by
  rw [readValue, skipSpace_cons (by decide)]
  simp only [skipSpace_cons hspace]
  split
  · rename_i heq
    exact absurd (List.cons.inj heq).1 hclose
  · rfl

theorem readValue_open_obj {fuel depth : Nat} {shape : Shape} {text : List Char} :
    readValue (fuel + 1) (depth + 1) shape ('{' :: '"' :: text) =
      (readEntries fuel depth shape ('"' :: text)).map fun parts => (obj parts.1, parts.2) := by
  rw [readValue, skipSpace_cons (by decide)]
  simp only [skipSpace_cons (show isSpace '"' = false by decide)]
  rfl

/-- The value of a name that is asked for is read with its name. -/
theorem readPart_of_readValue {fuel depth : Nat} {shape part : Shape} {name : String}
    {text rest : List Char} {value : Json} (hpart : shape.entry? name = some part)
    (h : readValue fuel depth part text = some (value, rest)) :
    readPart (fuel + 1) depth shape name text = some ([(name, value)], rest) := by
  simp [readPart, hpart, h]

/-- What is read behind the value of an entry: more entries, or the brace that closes them. -/
def readBehind (fuel depth : Nat) (shape : Shape) (name : String) (value : Json)
    (rest : List Char) : Option (List (String × Json) × List Char) :=
  match skipSpace rest with
  | ',' :: rest =>
    (readEntries fuel depth shape rest).map fun parts => ((name, value) :: parts.1, parts.2)
  | '}' :: rest => some ([(name, value)], rest)
  | _ => none

/-- An entry is read up to what stands behind its value. -/
theorem readEntries_entry {fuel depth : Nat} {shape : Shape} {name : String} {value : Json}
    {text rest : List Char}
    (h : readPart fuel depth shape name text = some ([(name, value)], rest)) :
    readEntries (fuel + 1) depth shape (writeString name ++ ':' :: text) =
      readBehind fuel depth shape name value rest := by
  rw [writeString, readEntries]
  simp only [List.cons_append, skipSpace_cons (show isSpace '"' = false by decide),
    readChars_string, String.ofList_toList, skipSpace_cons (show isSpace ':' = false by decide), h,
    List.nil_append]
  rfl

/- A value takes one step of fuel, an item two and an entry three, and each of them writes at least
one character. -/
mutual

/-- A written document is read from the text that it starts. -/
theorem readValue_write : (document : Json) → ∀ {fuel depth : Nat} {shape : Shape}
    {rest : List Char}, Legible shape depth document → 3 * document.write.length ≤ fuel + 3 →
    Delimited rest →
    readValue (fuel + 1) depth shape (document.write ++ rest) = some (document, rest)
  | .null, fuel, depth, shape, rest, _, _, _ => by
    simp [write, readValue, skipSpace_cons (show isSpace 'n' = false by decide)]
  | .bool true, fuel, depth, shape, rest, _, _, _ => by
    simp [write, readValue, skipSpace_cons (show isSpace 't' = false by decide)]
  | .bool false, fuel, depth, shape, rest, _, _, _ => by
    simp [write, readValue, skipSpace_cons (show isSpace 'f' = false by decide)]
  | .num n, fuel, depth, shape, rest, h, _, hrest => by
    rw [write]
    exact readValue_number (readSigned_writeNumber h.proper h.floats hrest)
  | .str s, fuel, depth, shape, rest, _, _, _ => by
    rw [write, writeString, List.cons_append, readValue, skipSpace_cons (by decide)]
    simp only [readChars_string, Option.map_some, String.ofList_toList]
  | .arr [], fuel, depth, shape, rest, h, _, _ => by
    obtain ⟨depth, rfl, -⟩ := h.items
    rw [write, readValue]
    simp only [List.cons_append, List.nil_append,
      skipSpace_cons (show isSpace '[' = false by decide),
      skipSpace_cons (show isSpace ']' = false by decide)]
  | .arr (item :: more), fuel, depth, shape, rest, h, hfuel, _ => by
    obtain ⟨depth, rfl, hitems⟩ := h.items
    obtain ⟨c, cs, hc, hspace, hclose⟩ := hitems.head.exists_write_eq_cons
    have hitem : 0 < item.write.length := by simp [hc]
    have hmore := length_writeItems_pos more
    rw [write, List.length_cons, List.length_append] at hfuel
    obtain ⟨fuel, rfl, -⟩ := exists_succ (show 0 + 1 ≤ fuel by omega)
    have hread := readItems_write more rest
      (fun rest hrest => by
        obtain ⟨fuel, rfl, -⟩ := exists_succ (show 0 + 1 ≤ fuel by omega)
        exact readValue_write item hitems.head (by omega) hrest)
      hitems.tail (show 3 * (writeItems more).length ≤ fuel + 3 by omega)
    rw [write, List.cons_append, List.append_assoc]
    rw [hc, List.cons_append] at hread ⊢
    rw [readValue_open_arr hspace hclose, hread]
    rfl
  | .obj [], fuel, depth, shape, rest, h, _, _ => by
    obtain ⟨depth, rfl, -⟩ := h.entries
    rw [write, readValue]
    simp only [List.cons_append, List.nil_append,
      skipSpace_cons (show isSpace '{' = false by decide),
      skipSpace_cons (show isSpace '}' = false by decide)]
  | .obj ((name, value) :: more), fuel, depth, shape, rest, h, hfuel, _ => by
    obtain ⟨depth, rfl, hentries⟩ := h.entries
    obtain ⟨part, hpart, hvalue⟩ := hentries.head
    have hmore := length_writeEntries_pos more
    rw [write] at hfuel
    simp only [List.length_cons, List.length_append] at hfuel
    obtain ⟨fuel, rfl, -⟩ := exists_succ (show 0 + 1 ≤ fuel by omega)
    have hread := readEntries_write more rest name
      (fun rest hrest => by
        obtain ⟨fuel, rfl, -⟩ := exists_succ (show 1 + 1 ≤ fuel by omega)
        obtain ⟨fuel, rfl, -⟩ := exists_succ (show 0 + 1 ≤ fuel by omega)
        exact readPart_of_readValue hpart (readValue_write value hvalue (by omega) hrest))
      hentries.tail (show 3 * (writeEntries more).length ≤ fuel + 3 by omega)
    rw [write, List.cons_append, List.append_assoc, List.cons_append, List.append_assoc]
    rw [writeString, List.cons_append] at hread ⊢
    rw [readValue_open_obj, hread]
    rfl

/-- The items behind one that is read are read up to the closing bracket. -/
theorem readItems_write : (more : List Json) → ∀ (rest : List Char) {fuel depth number : Nat}
    {shape : Shape} {item : Json},
    (∀ rest, Delimited rest →
      readValue fuel depth (shape.item number) (item.write ++ rest) = some (item, rest)) →
    LegibleItems shape depth (number + 1) more → 3 * (writeItems more).length ≤ fuel + 3 →
    readItems (fuel + 1) depth shape number (item.write ++ (writeItems more ++ rest)) =
      some (item :: more, rest)
  | [], rest, fuel, depth, number, shape, item, hread, _, _ => by
    rw [readItems, hread _ (delimited_writeItems _ _)]
    simp [writeItems, skipSpace_cons (show isSpace ']' = false by decide)]
  | next :: more, rest, fuel, depth, number, shape, item, hread, h, hfuel => by
    have hmore := length_writeItems_pos more
    rw [writeItems, List.length_cons, List.length_append] at hfuel
    obtain ⟨fuel, rfl, -⟩ := exists_succ (show 0 + 1 ≤ fuel by omega)
    have htail := readItems_write more rest
      (fun rest hrest => by
        obtain ⟨fuel, rfl, -⟩ := exists_succ (show 0 + 1 ≤ fuel by omega)
        exact readValue_write next h.head (by omega) hrest)
      h.tail (show 3 * (writeItems more).length ≤ fuel + 3 by omega)
    rw [readItems, hread _ (delimited_writeItems _ _), writeItems]
    simp only [List.cons_append, List.append_assoc,
      skipSpace_cons (show isSpace ',' = false by decide), htail, Option.map_some]

/-- The entries behind one that is read are read up to the closing brace. -/
theorem readEntries_write : (more : List (String × Json)) → ∀ (rest : List Char) (name : String)
    {fuel depth : Nat} {shape : Shape} {value : Json},
    (∀ rest, Delimited rest →
      readPart fuel depth shape name (value.write ++ rest) = some ([(name, value)], rest)) →
    LegibleEntries shape depth more → 3 * (writeEntries more).length ≤ fuel + 3 →
    readEntries (fuel + 1) depth shape
      (writeString name ++ ':' :: (value.write ++ (writeEntries more ++ rest))) =
      some ((name, value) :: more, rest)
  | [], rest, name, fuel, depth, shape, value, hread, _, _ => by
    rw [readEntries_entry (hread _ (delimited_writeEntries _ _)), readBehind, writeEntries]
    simp only [List.cons_append, List.nil_append,
      skipSpace_cons (show isSpace '}' = false by decide)]
  | (next, document) :: more, rest, name, fuel, depth, shape, value, hread, h, hfuel => by
    obtain ⟨part, hpart, hdocument⟩ := h.head
    have hmore := length_writeEntries_pos more
    rw [writeEntries] at hfuel
    simp only [List.length_cons, List.length_append] at hfuel
    obtain ⟨fuel, rfl, -⟩ := exists_succ (show 0 + 1 ≤ fuel by omega)
    have htail := readEntries_write more rest next
      (fun rest hrest => by
        obtain ⟨fuel, rfl, -⟩ := exists_succ (show 1 + 1 ≤ fuel by omega)
        obtain ⟨fuel, rfl, -⟩ := exists_succ (show 0 + 1 ≤ fuel by omega)
        exact readPart_of_readValue hpart (readValue_write document hdocument (by omega) hrest))
      h.tail (show 3 * (writeEntries more).length ≤ fuel + 3 by omega)
    rw [readEntries_entry (hread _ (delimited_writeEntries _ _)), readBehind, writeEntries]
    simp only [List.cons_append, List.append_assoc,
      skipSpace_cons (show isSpace ',' = false by decide), htail, Option.map_some]

end

/-- A legible document is read back from its text. -/
theorem parse?_text {shape : Shape} {document : Json} (h : Legible shape depthLimit document) :
    parse? shape document.text = some document := by
  have hread : readValue (3 * document.write.length + 2 + 1) depthLimit shape
      (document.write ++ []) = some (document, []) :=
    readValue_write document h (by omega) fun c hc => absurd hc (by simp)
  rw [List.append_nil] at hread
  simp only [parse?, text, String.toList_ofList, hread]
  rfl

mutual

theorem asked_whole : (document : Json) → Asked .whole document
  | .null | .bool _ | .num _ | .str _ => trivial
  | .arr items => askedItems_whole items 0
  | .obj entries => askedEntries_whole entries

theorem askedItems_whole : (items : List Json) → (number : Nat) → AskedItems .whole number items
  | [], _ => trivial
  | item :: rest, number => ⟨asked_whole item, askedItems_whole rest (number + 1)⟩

theorem askedEntries_whole : (entries : List (String × Json)) → AskedEntries .whole entries
  | [] => trivial
  | (_, value) :: rest => ⟨⟨.whole, rfl, asked_whole value⟩, askedEntries_whole rest⟩

end

end Json

end Narrative
